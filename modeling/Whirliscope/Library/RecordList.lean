import Mathlib.Data.List.Nodup
import Mathlib.Data.List.Perm.Basic

/-
  Records of different sizes in a row, each of them unused or
  with a key and a value.

  A new key goes into the first record with room for it. A key
  is taken out by giving its record to the one before it, or
  by leaving the record unused.

  Key definitions include:
    * `Record`, `entries`, `lookup`
    * `insert`, `Removal`

  Main theorems:
    * `lookup_larger`, `lookup_smaller`
    * `entries_insert`, `Removal.entries_perm`
-/

------------------------------------------------------------
-- Records
------------------------------------------------------------

namespace Records

/- A record of some size, unused or with a key and a value. -/
structure Record (κ ν : Type) where
  size : Nat
  entry : Option (κ × ν)

section

variable {κ ν : Type}

/- The keys with their values, in their order. -/
def entries
    (records : List (Record κ ν)) : List (κ × ν) :=
  records.filterMap Record.entry

def keys
    (records : List (Record κ ν)) : List κ :=
  (entries records).map Prod.fst

def total : List (Record κ ν) → Nat
| [] => 0
| record :: records => record.size + total records

/-
  A record that is not too small: `least` for its key, and
  `bare` in any case.
-/
def Record.Fits
    (least : κ → Nat)
    (bare : Nat)
    (record : Record κ ν) : Prop :=
  bare ≤ record.size ∧
    ∀ entry, record.entry = some entry →
      least entry.1 ≤ record.size

/- The value of the first record with a key. -/
def lookup
    [DecidableEq κ]
    (key : κ)
    (records : List (Record κ ν)) : Option ν :=
  (entries records).lookup key

variable {records records' before after : List (Record κ ν)}
variable {record : Record κ ν} {key : κ} {value : ν}

@[simp] theorem entries_append
    (first second : List (Record κ ν)) :
    entries (first ++ second) =
      entries first ++ entries second :=
  List.filterMap_append

theorem entries_cons
    (record : Record κ ν)
    (records : List (Record κ ν)) :
    entries (record :: records) =
      record.entry.toList ++ entries records := by
  unfold entries
  cases hEntry : record.entry with
  | none => rw [List.filterMap_cons_none hEntry]; rfl
  | some entry => rw [List.filterMap_cons_some hEntry]; rfl

@[simp] theorem total_cons
    (record : Record κ ν)
    (records : List (Record κ ν)) :
    total (record :: records) = record.size + total records :=
  rfl

@[simp] theorem total_nil :
    total ([] : List (Record κ ν)) = 0 :=
  rfl

@[simp] theorem total_append
    (first second : List (Record κ ν)) :
    total (first ++ second) = total first + total second := by
  induction first with
  | nil => rw [List.nil_append, total_nil, Nat.zero_add]
  | cons record first ih =>
      rw [List.cons_append, total_cons, total_cons, ih,
        Nat.add_assoc]

section

variable [DecidableEq κ]

theorem lookup_cons_unused
    (hEntry : record.entry = none) :
    lookup key (record :: records) = lookup key records := by
  unfold lookup
  rw [entries_cons, hEntry]
  rfl

theorem lookup_cons_entry
    {other : κ}
    (hEntry : record.entry = some (other, value)) :
    lookup key (record :: records) =
      if other = key then some value
      else lookup key records := by
  unfold lookup
  rw [entries_cons, hEntry, Option.toList_some,
    List.singleton_append]
  by_cases hSame : other = key
  · rw [hSame, List.lookup_cons_self, if_pos rfl]
  · rw [List.lookup_cons,
      beq_eq_false_iff_ne.mpr (Ne.symm hSame), if_neg hSame]

/- What is found under a key, when no key is there twice. -/
theorem lookup_eq_some_iff
    (hDistinct : (keys records).Nodup) :
    lookup key records = some value ↔
      (key, value) ∈ entries records := by
  unfold keys at hDistinct
  unfold lookup
  generalize entries records = list at hDistinct ⊢
  induction list with
  | nil => simp
  | cons entry rest ih =>
      rw [List.map_cons, List.nodup_cons] at hDistinct
      rcases entry with ⟨other, found⟩
      rw [List.mem_cons, Prod.mk.injEq]
      by_cases hSame : key = other
      · subst hSame
        rw [List.lookup_cons_self, Option.some.injEq]
        constructor
        · exact fun hValue => .inl ⟨rfl, hValue.symm⟩
        · rintro (⟨-, hValue⟩ | hMem)
          · exact hValue.symm
          · exact absurd (List.mem_map_of_mem hMem)
              hDistinct.1
      · rw [List.lookup_cons, beq_eq_false_iff_ne.mpr hSame]
        simp only [hSame, false_and, false_or]
        exact ih hDistinct.2

theorem lookup_eq_none_iff :
    lookup key records = none ↔ key ∉ keys records := by
  unfold lookup keys
  rw [List.lookup_eq_none_iff]
  simp only [bne_iff_ne, ne_eq, List.mem_map, not_exists,
    not_and]
  exact ⟨fun hNone entry hMem hSame =>
      hNone entry hMem hSame.symm,
    fun hNone entry hMem hSame => hNone entry hMem hSame.symm⟩

end

end

end Records

------------------------------------------------------------
-- One Key More
------------------------------------------------------------

namespace Records

section

variable {κ ν : Type}
variable {smaller larger : List (Record κ ν)}
variable {key : κ} {value : ν}

/- A key more in a part is a key more in the whole. -/
theorem perm_cons_of_part
    (hPerm :
      (entries larger).Perm ((key, value) :: entries smaller))
    (first last : List (Record κ ν)) :
    (entries (first ++ (larger ++ last))).Perm
      ((key, value) ::
        entries (first ++ (smaller ++ last))) := by
  simp only [entries_append]
  calc
    (entries first ++ (entries larger ++ entries last)).Perm
        (entries first ++
          ((key, value) :: entries smaller ++ entries last)) :=
      (hPerm.append_right _).append_left _
    _ = entries first ++
          (key, value) ::
            (entries smaller ++ entries last) := rfl
    List.Perm _
        ((key, value) ::
          (entries first ++
            (entries smaller ++ entries last))) :=
      List.perm_middle

theorem distinct_iff
    (hPerm :
      (entries larger).Perm ((key, value) :: entries smaller)) :
    (keys larger).Nodup ↔
      key ∉ keys smaller ∧ (keys smaller).Nodup := by
  have hKeys := hPerm.map Prod.fst
  rw [List.map_cons] at hKeys
  exact hKeys.nodup_iff.trans List.nodup_cons

variable [DecidableEq κ]

/- The key is found, the others as without it. -/
theorem lookup_larger
    (hDistinct : (keys larger).Nodup)
    (hPerm :
      (entries larger).Perm ((key, value) :: entries smaller))
    (other : κ) :
    lookup other larger =
      if other = key then some value
      else lookup other smaller := by
  rcases (distinct_iff hPerm).mp hDistinct with
    ⟨hFree, hDistinct'⟩
  apply Option.ext
  intro found
  rw [lookup_eq_some_iff hDistinct, hPerm.mem_iff,
    List.mem_cons, Prod.mk.injEq]
  by_cases hSame : other = key
  · subst hSame
    rw [if_pos rfl, Option.some.injEq]
    constructor
    · rintro (⟨-, hValue⟩ | hMem)
      · exact hValue.symm
      · exact absurd (List.mem_map_of_mem hMem) hFree
    · exact fun hValue => .inl ⟨rfl, hValue.symm⟩
  · rw [if_neg hSame, lookup_eq_some_iff hDistinct']
    simp only [hSame, false_and, false_or]

/- Without the key, it is not found. -/
theorem lookup_smaller
    (hDistinct : (keys larger).Nodup)
    (hPerm :
      (entries larger).Perm ((key, value) :: entries smaller))
    (other : κ) :
    lookup other smaller =
      if other = key then none else lookup other larger := by
  by_cases hSame : other = key
  · rw [if_pos hSame, hSame, lookup_eq_none_iff]
    exact ((distinct_iff hPerm).mp hDistinct).1
  · rw [if_neg hSame, lookup_larger hDistinct hPerm other,
      if_neg hSame]

end

end Records

------------------------------------------------------------
-- Putting a Key In
------------------------------------------------------------

namespace Records

section

variable {κ ν : Type}

/- The part of a record that is taken. -/
def Record.used
    (need : κ → Nat)
    (bare : Nat)
    (record : Record κ ν) : Nat :=
  match record.entry with
  | some entry => need entry.1
  | none => bare

/-
  A record with room for one more key: a record in use is cut
  in two, an unused one takes the key as a whole.
-/
def Record.place
    (need : κ → Nat)
    (record : Record κ ν)
    (key : κ)
    (value : ν) : List (Record κ ν) :=
  match record.entry with
  | some entry =>
      [{ record with size := need entry.1 },
        { size := record.size - need entry.1
          entry := some (key, value) }]
  | none => [{ record with entry := some (key, value) }]

/- The first record with room takes the key. -/
def insert
    (need : κ → Nat)
    (bare : Nat)
    (key : κ)
    (value : ν) :
    List (Record κ ν) → Option (List (Record κ ν))
| [] => none
| record :: records =>
    if record.used need bare + need key ≤ record.size then
      some (record.place need key value ++ records)
    else
      (insert need bare key value records).map (record :: ·)

variable {need least : κ → Nat} {bare : Nat}
variable {records records' : List (Record κ ν)}
variable {record : Record κ ν} {key : κ} {value : ν}

theorem entries_place
    (record : Record κ ν) :
    entries (record.place need key value) =
      record.entry.toList ++ [(key, value)] := by
  unfold Record.place
  cases hEntry : record.entry with
  | none => rfl
  | some entry =>
      rw [entries_cons, entries_cons]
      rfl

theorem fits_place
    (hLeast : ∀ key, least key ≤ need key)
    (hBare : ∀ key, bare ≤ need key)
    (hFits : record.Fits least bare)
    (hRoom :
      record.used need bare + need key ≤ record.size) :
    ∀ other ∈ record.place need key value,
      other.Fits least bare := by
  have hKey := hLeast key
  have hSmall := hBare key
  unfold Record.used at hRoom
  unfold Record.place
  cases hEntry : record.entry with
  | none =>
      rw [hEntry] at hRoom
      dsimp only at hRoom ⊢
      intro other hMem
      rw [List.mem_singleton] at hMem
      subst hMem
      refine ⟨hFits.1, fun entry hSome => ?_⟩
      injection hSome with hSome
      subst hSome
      have hWhole : need key ≤ record.size := by omega
      exact Nat.le_trans hKey hWhole
  | some old =>
      rw [hEntry] at hRoom
      dsimp only at hRoom ⊢
      intro other hMem
      rw [List.mem_cons, List.mem_singleton] at hMem
      rcases hMem with rfl | rfl
      · refine ⟨hBare old.1, fun entry hSome => ?_⟩
        injection hSome with hSome
        subst hSome
        exact hLeast old.1
      · refine ⟨by dsimp only; omega, fun entry hSome => ?_⟩
        injection hSome with hSome
        subst hSome
        dsimp only
        omega

/- Where the key went. -/
theorem insert_eq_some
    (hInsert :
      insert need bare key value records = some records') :
    ∃ before record after,
      records = before ++ record :: after ∧
        records' =
          before ++ (record.place need key value ++ after) ∧
        record.used need bare + need key ≤ record.size := by
  induction records generalizing records' with
  | nil => cases hInsert
  | cons head rest ih =>
      rw [insert] at hInsert
      split_ifs at hInsert with hRoom
      · injection hInsert with hInsert
        exact ⟨[], head, rest, rfl, hInsert.symm, hRoom⟩
      · rw [Option.map_eq_some_iff] at hInsert
        rcases hInsert with ⟨found, hFound, rfl⟩
        rcases ih hFound with
          ⟨before, record, after, rfl, rfl, hRoom'⟩
        exact ⟨head :: before, record, after, rfl, rfl, hRoom'⟩

/- No record takes the key when none has room. -/
theorem insert_eq_none_iff :
    insert need bare key value records = none ↔
      ∀ record ∈ records,
        record.size < record.used need bare + need key := by
  induction records with
  | nil => simp [insert]
  | cons head rest ih =>
      rw [insert, List.forall_mem_cons, ← ih]
      split_ifs with hRoom
      · constructor
        · intro hNever
          cases hNever
        · rintro ⟨hFull, -⟩
          omega
      · rw [Option.map_eq_none_iff]
        constructor
        · exact fun hNone => ⟨by omega, hNone⟩
        · exact And.right

/- The new key is there besides the old ones. -/
theorem entries_insert
    (hInsert :
      insert need bare key value records = some records') :
    (entries records').Perm ((key, value) :: entries records) := by
  rcases insert_eq_some hInsert with
    ⟨before, record, after, rfl, rfl, -⟩
  have hMiddle :=
    @List.perm_middle _ (key, value)
      (entries before ++ record.entry.toList) (entries after)
  rw [entries_append, entries_append, entries_place,
    entries_append, entries_cons]
  simpa only [List.append_assoc, List.singleton_append]
    using hMiddle

end

end Records

------------------------------------------------------------
-- Taking a Key Out
------------------------------------------------------------

namespace Records

/-
  Taking a record with a key out: the record before it takes
  its size, or it stays as an unused record.
-/
inductive Removal
    {κ ν : Type}
    (key : κ)
    (value : ν) :
    List (Record κ ν) → List (Record κ ν) → Prop
| unused
    {before after : List (Record κ ν)}
    {record : Record κ ν}
    (hEntry : record.entry = some (key, value)) :
    Removal key value (before ++ record :: after)
      (before ++ { record with entry := none } :: after)
| merged
    {before after : List (Record κ ν)}
    {previous record : Record κ ν}
    (hEntry : record.entry = some (key, value)) :
    Removal key value (before ++ previous :: record :: after)
      (before ++
        { previous with size := previous.size + record.size } ::
          after)

section

variable {κ ν : Type} {records records' : List (Record κ ν)}
variable {key : κ} {value : ν}

namespace Removal

/- The key was there besides the keys that are left. -/
theorem entries_perm
    (hRemoval : Removal key value records records') :
    (entries records).Perm ((key, value) :: entries records') := by
  cases hRemoval with
  | @unused before after record hEntry =>
      rw [entries_append, entries_append, entries_cons,
        entries_cons, hEntry]
      exact List.perm_middle
  | @merged before after previous record hEntry =>
      have hMiddle :=
        @List.perm_middle _ (key, value)
          (entries before ++ previous.entry.toList)
          (entries after)
      rw [entries_append, entries_append, entries_cons,
        entries_cons, entries_cons, hEntry]
      simpa only [List.append_assoc, Option.toList_some,
        List.singleton_append] using hMiddle

end Removal

variable [DecidableEq κ]

/- The records before the first one with a key. -/
def beforeKey
    (key : κ)
    (records : List (Record κ ν)) : List (Record κ ν) :=
  records.takeWhile fun record =>
    record.entry.map Prod.fst ≠ some key

/-
  The record before the first one with a key is in use, or no
  record before it is.
-/
def Mergeable
    (key : κ)
    (records : List (Record κ ν)) : Prop :=
  (∀ other ∈ beforeKey key records, other.entry = none) ∨
    ∃ previous ∈ (beforeKey key records).getLast?,
      previous.entry ≠ none

instance
    (key : κ)
    (records : List (Record κ ν)) :
    Decidable (Mergeable key records) :=
  inferInstanceAs (Decidable (_ ∨ _))

theorem beforeKey_eq
    {before after : List (Record κ ν)}
    {record : Record κ ν}
    (hFree : key ∉ keys before)
    (hEntry : record.entry = some (key, value)) :
    beforeKey key (before ++ record :: after) = before := by
  unfold beforeKey
  rw [List.takeWhile_append_of_pos, List.takeWhile_cons,
    hEntry]
  · simp
  · intro other hMem
    rw [decide_eq_true_eq]
    intro hKey
    rw [Option.map_eq_some_iff] at hKey
    rcases hKey with ⟨entry, hOther, rfl⟩
    exact hFree (List.mem_map_of_mem
      (List.mem_filterMap.mpr ⟨other, hMem, hOther⟩))

/- The first record with a key. -/
theorem exists_first
    {records : List (Record κ ν)}
    (hKey : key ∈ keys records) :
    ∃ before record after value,
      records = before ++ record :: after ∧
        key ∉ keys before ∧
        record.entry = some (key, value) := by
  induction records with
  | nil => exact absurd hKey List.not_mem_nil
  | cons head rest ih =>
      by_cases hHead : ∃ value, head.entry = some (key, value)
      · rcases hHead with ⟨value, hEntry⟩
        exact ⟨[], head, rest, value, rfl, List.not_mem_nil,
          hEntry⟩
      have hNot : key ∉ head.entry.toList.map Prod.fst := by
        rw [List.mem_map]
        rintro ⟨⟨other, value⟩, hMem, rfl⟩
        exact hHead ⟨value, Option.mem_toList.mp hMem⟩
      unfold keys at hKey ih
      rw [entries_cons, List.map_append, List.mem_append]
        at hKey
      rcases ih (hKey.resolve_left hNot) with
        ⟨before, record, after, value, rfl, hFree, hEntry⟩
      refine ⟨head :: before, record, after, value, rfl, ?_,
        hEntry⟩
      unfold keys
      rw [entries_cons, List.map_append, List.mem_append]
      exact not_or.mpr ⟨hNot, hFree⟩

/- A part of the records from where no key came before. -/
theorem Mergeable.of_part
    {first row last : List (Record κ ν)}
    (hMergeable : Mergeable key (first ++ (row ++ last)))
    (hFree : key ∉ keys first)
    (hKey : key ∈ keys row) :
    Mergeable key row := by
  rcases exists_first hKey with
    ⟨before, record, after, value, rfl, hBefore, hEntry⟩
  have hSplit :
      first ++ (before ++ record :: after ++ last) =
        (first ++ before) ++ record :: (after ++ last) := by
    simp only [List.append_assoc, List.cons_append]
  have hNone : key ∉ keys (first ++ before) := by
    unfold keys
    rw [entries_append, List.map_append, List.mem_append]
    exact not_or.mpr ⟨hFree, hBefore⟩
  unfold Mergeable at hMergeable ⊢
  rw [hSplit, beforeKey_eq hNone hEntry] at hMergeable
  rw [beforeKey_eq hBefore hEntry]
  rcases hMergeable with hAll | ⟨previous, hLast, hLive⟩
  · exact .inl fun other hMem =>
      hAll other (List.mem_append_right first hMem)
  · by_cases hEmpty : before = []
    · subst hEmpty
      exact .inl fun _ hNever =>
        absurd hNever List.not_mem_nil
    · rw [List.getLast?_append_of_ne_nil first hEmpty] at hLast
      exact .inr ⟨previous, hLast, hLive⟩

end

end Records
