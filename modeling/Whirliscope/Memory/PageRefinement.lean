import Whirliscope.Memory.PageTree

/-
  The paging calls implement a partial function.

  A mapping call creates tables without changing a
  translation and then stores one entry. The page of that
  entry is the only range whose translation changes.

  Key definitions include:
    * `Linkable`, `WalkOutcome`
    * `inPage`, `specStep`, `specRun`

  Main theorem:
    * `runPageCalls_refines`
-/

------------------------------------------------------------
-- The Walk That Creates Tables
------------------------------------------------------------

namespace Whirliscope

namespace Vmm

open ByteMemory

/-
  Mapping an address needs no new entry in a root that other
  roots share with it.
-/
def Linkable
    (roots : List Nat)
    (root target : Nat)
    (s : Paging) : Prop :=
  (∀ other ∈ roots, other = root) ∨ ¬ Shared target ∨
    loadEntry s.tables (root + 8 * levelIndex target 0) &&&
      vmmPresent ≠ 0

/- Where a walk that creates tables arrives, and its effect. -/
structure WalkOutcome
    (roots : List Nat)
    (root target targetShift : Nat)
    (s : Paging)
    (result : Option VmmMapping)
    (s' : Paging) : Prop where
  forest : PageForest roots s'
  leaves : SameLeaves roots s s'
  adds : AddsFree roots s s'
  top : KeepsTop roots s s'
  free : s'.free <:+ s.free
  arrives :
    ∀ mapping, result = some mapping →
      ∃ level table, level < 4 ∧
        levelShift level = targetShift ∧
        tableAt s'.tables root target level = some table ∧
        mapping =
          ⟨table + 8 * levelIndex target level,
            targetShift⟩

theorem SameLeaves.refl
    (roots : List Nat)
    (s : Paging) :
    SameLeaves roots s s :=
  fun _ _ _ => rfl

theorem AddsFree.refl
    (roots : List Nat)
    (s : Paging) :
    AddsFree roots s s :=
  fun _ _ _ _ _ _ hTable => .inl hTable

theorem AddsFree.trans
    {roots : List Nat}
    {s s' s'' : Paging}
    (hFirst : AddsFree roots s s')
    (hSecond : AddsFree roots s' s'')
    (hFree : s'.free <:+ s.free) :
    AddsFree roots s s'' := by
  intro root hRoot v level table hLevel hTable
  rcases hSecond root hRoot v level table hLevel hTable with
    hOld | hNew
  · exact hFirst root hRoot v level table hLevel hOld
  · exact .inr (hFree.subset hNew)

theorem KeepsTop.trans
    {roots : List Nat}
    {s s' s'' : Paging}
    (hFirst : KeepsTop roots s s')
    (hSecond : KeepsTop roots s' s'') :
    KeepsTop roots s s'' :=
  fun root hRoot v table hTable =>
    hSecond root hRoot v table
      (hFirst root hRoot v table hTable)

theorem SameLeaves.trans
    {roots : List Nat}
    {s s' s'' : Paging}
    (hFirst : SameLeaves roots s s')
    (hSecond : SameLeaves roots s' s'') :
    SameLeaves roots s s'' := by
  intro root hRoot v
  rw [hSecond root hRoot v, hFirst root hRoot v]

/- A walk that stops without a table changes nothing. -/
theorem WalkOutcome.stay
    {roots : List Nat}
    {root target targetShift : Nat}
    {s : Paging}
    (hForest : PageForest roots s) :
    WalkOutcome roots root target targetShift s none s where
  forest := hForest
  leaves := SameLeaves.refl roots s
  adds := AddsFree.refl roots s
  top := fun _ _ _ _ hTable => hTable
  free := List.suffix_refl s.free
  arrives := by
    intro mapping hNone
    cases hNone

theorem WalkOutcome.after
    {roots : List Nat}
    {root target targetShift : Nat}
    {s middle s' : Paging}
    {result : Option VmmMapping}
    (hLeaves : SameLeaves roots s middle)
    (hAdds : AddsFree roots s middle)
    (hTop : KeepsTop roots s middle)
    (hFree : middle.free <:+ s.free)
    (hOutcome :
      WalkOutcome roots root target targetShift middle
        result s') :
    WalkOutcome roots root target targetShift s result s' where
  forest := hOutcome.forest
  leaves := hLeaves.trans hOutcome.leaves
  adds := hAdds.trans hOutcome.adds hFree
  top := hTop.trans hOutcome.top
  free := hOutcome.free.trans hFree
  arrives := hOutcome.arrives

/- What the walk does from a table of the address on. -/
theorem walkLevelsCreate_outcome
    {roots : List Nat}
    {root target flags targetShift : Nat}
    (hRoot : root ∈ roots)
    {shifts : List Nat}
    {level table : Nat}
    {s : Paging}
    (hShifts : shifts = [39, 30, 21, 12].drop level)
    (hForest : PageForest roots s)
    (hTable :
      tableAt s.tables root target level = some table)
    (hAhead :
      ∃ last, level ≤ last ∧ last < 4 ∧
        levelShift last = targetShift)
    (hLinkable : 0 < level ∨ Linkable roots root target s) :
    WalkOutcome roots root target targetShift s
      (walkLevelsCreate target flags targetShift shifts table
        s).1
      (walkLevelsCreate target flags targetShift shifts table
        s).2 := by
  induction shifts generalizing level table s with
  | nil => exact WalkOutcome.stay hForest
  | cons shift shifts ih =>
      have hLevel : level < 4 := by
        by_contra hNot
        rw [List.drop_eq_nil_of_le
          (show [39, 30, 21, 12].length ≤ level by
            simp; omega)] at hShifts
        cases hShifts
      have hShift :
          shift = levelShift level ∧
            shifts = [39, 30, 21, 12].drop (level + 1) := by
        match level, hLevel with
        | 0, _ => cases hShifts; exact ⟨rfl, rfl⟩
        | 1, _ => cases hShifts; exact ⟨rfl, rfl⟩
        | 2, _ => cases hShifts; exact ⟨rfl, rfl⟩
        | 3, _ => cases hShifts; exact ⟨rfl, rfl⟩
      rcases hShift with ⟨rfl, hRest⟩
      have hIndex :
          tableIndex target (levelShift level) =
            levelIndex target level := rfl
      simp only [walkLevelsCreate, hIndex]
      by_cases hTarget : levelShift level = targetShift
      · rw [if_pos hTarget]
        refine
          { forest := hForest
            leaves := SameLeaves.refl roots s
            adds := AddsFree.refl roots s
            top := fun _ _ _ _ hTable => hTable
            free := List.suffix_refl s.free
            arrives := ?_ }
        intro mapping hMapping
        cases hMapping
        exact ⟨level, table, hLevel, hTarget, hTable, by
          rw [hTarget]⟩
      rw [if_neg hTarget]
      have hBelow :
          ∃ last, level + 1 ≤ last ∧ last < 4 ∧
            levelShift last = targetShift := by
        rcases hAhead with ⟨last, hLe, hLast, hEq⟩
        refine ⟨last, ?_, hLast, hEq⟩
        rcases Nat.lt_or_eq_of_le hLe with hLt | rfl
        · exact hLt
        · exact absurd hEq hTarget
      have hInner : level < 3 := by
        rcases hBelow with ⟨last, hLe, hLast, -⟩
        omega
      by_cases hAbsent :
          loadEntry s.tables
              (table + 8 * levelIndex target level) &&&
            vmmPresent = 0
      · rw [if_pos hAbsent]
        simp only [ensureNextTable, hAbsent, ne_eq,
          not_true_eq_false, if_false]
        cases hFree : s.free with
        | nil =>
            simp only [pmmAllocPage, hFree, if_true]
            exact WalkOutcome.stay hForest
        | cons page rest =>
            have hFrame :=
              hForest.free_frame page
                (by rw [hFree]; exact List.mem_cons_self)
            simp only [pmmAllocPage, hFree, if_neg hFrame.1]
            have hKeeps :
                KeepsShared roots root target level := by
              rcases hLinkable with
                hPos | hOnly | hPrivate | hPresent
              · exact .inl hPos
              · exact .inr (.inr hOnly)
              · exact .inr (.inl hPrivate)
              · refine .inl (Nat.pos_of_ne_zero ?_)
                rintro rfl
                cases hTable
                exact hPresent hAbsent
            rcases hForest.link hRoot hInner hTable hAbsent
                hFree hKeeps flags with
              ⟨hForest', hLeaves, hAdds, hTop, hNext⟩
            exact (ih hRest hForest' hNext hBelow
              (.inl (Nat.succ_pos level))).after hLeaves hAdds
              hTop
              (by rw [hFree]; exact List.suffix_cons page rest)
      rw [if_neg hAbsent]
      by_cases hHuge :
          isHugeEntry
            (loadEntry s.tables
              (table + 8 * levelIndex target level))
            (levelShift level) = true
      · rw [if_pos hHuge]
        exact WalkOutcome.stay hForest
      · rw [if_neg hHuge]
        apply ih hRest hForest _ hBelow
          (.inl (Nat.succ_pos level))
        rw [tableAt, hTable]
        exact if_pos ⟨hAbsent, by simpa using hHuge⟩

end Vmm

end Whirliscope

------------------------------------------------------------
-- Mapping and Unmapping a Page
------------------------------------------------------------

namespace Whirliscope

namespace Vmm

open ByteMemory

/- The addresses of the page of `target`. -/
def InPage
    (virtualAddress target shift : Nat) : Prop :=
  virtualAddress % 2 ^ 48 / 2 ^ shift =
    target % 2 ^ 48 / 2 ^ shift

instance
    (virtualAddress target shift : Nat) :
    Decidable (InPage virtualAddress target shift) :=
  inferInstanceAs (Decidable (_ = _))

/- The walks of a page are those that share its entry. -/
theorem samePath_iff
    {level : Nat}
    (hLevel : level = 1 ∨ level = 2 ∨ level = 3)
    (virtualAddress target : Nat) :
    SamePath virtualAddress target (level + 1) ↔
      InPage virtualAddress target (levelShift level) := by
  have hLevels :
      ∀ count,
        SamePath virtualAddress target (count + 1) ↔
          SamePath virtualAddress target count ∧
            virtualAddress / 2 ^ levelShift count % 512 =
              target / 2 ^ levelShift count % 512 := by
    intro count
    rw [← levelIndex_eq, ← levelIndex_eq]
    constructor
    · intro hPath
      exact ⟨hPath.mono (Nat.le_succ count),
        hPath count (Nat.lt_succ_self count)⟩
    · rintro ⟨hPath, hIndex⟩
      exact hPath.succ hIndex
  have hNone :
      SamePath virtualAddress target 0 ↔ True :=
    iff_of_true (fun k hk => absurd hk (Nat.not_lt_zero k))
      trivial
  rcases hLevel with rfl | rfl | rfl
  · simp only [hLevels, hNone, true_and, InPage, levelShift]
    omega
  · simp only [hLevels, hNone, true_and, InPage, levelShift]
    omega
  · simp only [hLevels, hNone, true_and, InPage, levelShift]
    omega

/- The mapping that an entry for a page gives its addresses. -/
theorem leafFrom_leafEntry
    {physical flags level : Nat}
    (hLevel : level = 1 ∨ level = 2 ∨ level = 3)
    (hAligned : physical % 2 ^ levelShift level = 0)
    (hBound : physical < 2 ^ 52)
    (hFlags : flags &&& pteAddrMask = 0)
    (hWord : flags < 2 ^ 64)
    (virtualAddress : Nat) :
    leafFrom
        (leafEntry physical flags (levelShift level))
        (levelShift level) virtualAddress =
      { physical :=
          physical + virtualAddress % 2 ^ levelShift level
        shift := levelShift level } := by
  rcases leafEntry_facts hLevel hAligned hBound hFlags hWord
    with ⟨-, -, -, hAddress⟩
  unfold leafFrom
  rw [hAddress, Nat.and_two_pow_sub_one_eq_mod]
  have hSplit :
      physical =
        (physical / 2 ^ levelShift level) <<<
          levelShift level := by
    rw [Nat.shiftLeft_eq]
    exact (Nat.div_mul_cancel
      (Nat.dvd_of_mod_eq_zero hAligned)).symm
  have hSum :
      physical ||| virtualAddress % 2 ^ levelShift level =
        physical +
          virtualAddress % 2 ^ levelShift level := by
    rw [hSplit, Nat.shiftLeft_add_eq_or_of_lt
      (Nat.mod_lt _ (Nat.two_pow_pos _))]
  rw [hSum]

/- The arguments of a mapping call. -/
structure MapArguments
    (physical flags : Nat) : Prop where
  physical_lt : physical < 2 ^ 52
  flags_lt : flags < 2 ^ 64
  flags_clear : flags &&& pteAddrMask = 0

/- What a mapping call does to every space. -/
structure MapOutcome
    (roots : List Nat)
    (root target physical flags shift : Nat)
    (s : Paging)
    (ok : Bool)
    (s' : Paging) : Prop where
  forest : PageForest roots s'
  adds : AddsFree roots s s'
  top : KeepsTop roots s s'
  free : s'.free <:+ s.free
  refused : ok = false → SameLeaves roots s s'
  aligned : ok = true → target % 2 ^ shift = 0
  linked :
    ok = true →
      ∃ table, tableAt s'.tables root target 1 = some table
  mapped :
    ok = true → MapArguments physical flags →
    ∀ other ∈ roots, ∀ virtualAddress,
      other = root ∨ Shared target →
      InPage virtualAddress target shift →
        leafOf s'.tables other virtualAddress =
          some
            { physical :=
                physical + virtualAddress % 2 ^ shift
              shift := shift }
  kept :
    ok = true → ∀ other ∈ roots, ∀ virtualAddress,
      ¬ ((other = root ∨ Shared target) ∧
          InPage virtualAddress target shift) →
        leafOf s'.tables other virtualAddress =
          leafOf s.tables other virtualAddress

theorem MapOutcome.of_walk
    {roots : List Nat}
    {root target physical flags shift : Nat}
    {s s' : Paging}
    {result : Option VmmMapping}
    (hWalk :
      WalkOutcome roots root target shift s result s') :
    MapOutcome roots root target physical flags shift s false
      s' where
  forest := hWalk.forest
  adds := hWalk.adds
  top := hWalk.top
  free := hWalk.free
  refused := fun _ => hWalk.leaves
  aligned := by
    intro hTrue
    cases hTrue
  linked := by
    intro hTrue
    cases hTrue
  mapped := by
    intro hTrue
    cases hTrue
  kept := by
    intro hTrue
    cases hTrue

/- The store at the end of a successful mapping call. -/
theorem MapOutcome.of_store
    {roots : List Nat}
    {root target physical flags level table : Nat}
    {s middle : Paging}
    {result : Option VmmMapping}
    (hWalk :
      WalkOutcome roots root target (levelShift level) s
        result middle)
    (hRoot : root ∈ roots)
    (hLevel : level = 1 ∨ level = 2 ∨ level = 3)
    (hWord : physical < 2 ^ 64 ∧ flags < 2 ^ 64)
    (hArguments : level = 3 ∨ MapArguments physical flags)
    (hTarget : target % 2 ^ levelShift level = 0)
    (hPhysical : physical % 2 ^ levelShift level = 0)
    (hTable :
      tableAt middle.tables root target level =
        some table) :
    MapOutcome roots root target physical flags
      (levelShift level) s true
      (middle.store (table + 8 * levelIndex target level)
        (leafEntry physical flags (levelShift level))) := by
  have hPos : 0 < level := by omega
  have hStop :
      level = 3 ∨
        ¬ IsTable
          (leafEntry physical flags (levelShift level))
          level := by
    rcases hArguments with hThree | hArguments
    · exact .inl hThree
    · exact (leafEntry_facts hLevel hPhysical
        hArguments.physical_lt hArguments.flags_clear
        hArguments.flags_lt).2.2.1
  rcases hWalk.forest.storeLeaf hRoot (by omega) hTable
      (leafEntry_lt hWord.1 hWord.2 _) hStop (.inl hPos) with
    ⟨hForest, hAdds, hTop, hLeaves⟩
  refine
    { forest := hForest
      adds := hWalk.adds.trans hAdds hWalk.free
      top := hWalk.top.trans (hTop hPos)
      free := hWalk.free
      refused := ?_
      aligned := fun _ => hTarget
      linked := ?_
      mapped := ?_
      kept := ?_ }
  · intro hFalse
    cases hFalse
  · intro _
    rcases tableAt_isSome_of_le hTable
        (show 1 ≤ level by omega) with ⟨above, hOne⟩
    exact ⟨above, hTop hPos root hRoot target above hOne⟩
  · intro _ hArguments other hOther v hSees hIn
    rw [(hLeaves other hOther v).1
      (hSees.imp_right (fun h => ⟨hPos, h⟩))
      ((samePath_iff hLevel v target).mpr hIn),
      if_neg
        (leafEntry_facts hLevel hPhysical
          hArguments.physical_lt hArguments.flags_clear
          hArguments.flags_lt).2.1,
      leafFrom_leafEntry hLevel hPhysical
        hArguments.physical_lt hArguments.flags_clear
        hArguments.flags_lt]
  · intro _ other hOther v hMiss
    rw [(hLeaves other hOther v).2, hWalk.leaves other hOther]
    rintro ⟨hSees, hPath⟩
    exact hMiss ⟨hSees.imp_right And.right,
      (samePath_iff hLevel v target).mp hPath⟩

theorem mapAtLevelInRoot_outcome
    {roots : List Nat}
    {root target physical flags level : Nat}
    {s : Paging}
    (hForest : PageForest roots s)
    (hRoot : root ∈ roots)
    (hLevel : level = 1 ∨ level = 2 ∨ level = 3)
    (hWord : physical < 2 ^ 64 ∧ flags < 2 ^ 64)
    (hArguments : level = 3 ∨ MapArguments physical flags)
    (hLinkable : Linkable roots root target s) :
    MapOutcome roots root target physical flags
      (levelShift level) s
      (mapAtLevelInRoot root target physical
        (2 ^ levelShift level) (levelShift level) flags s).1
      (mapAtLevelInRoot root target physical
        (2 ^ levelShift level) (levelShift level) flags
        s).2 := by
  unfold mapAtLevelInRoot
  by_cases hAligned :
      addressesAreAligned target physical
        (2 ^ levelShift level) = true
  · have hParts := hAligned
    simp only [addressesAreAligned,
      Nat.and_two_pow_sub_one_eq_mod, Bool.and_eq_true,
      beq_iff_eq] at hParts
    rcases hParts with ⟨hTarget, hPhysical⟩
    have hWalk :
        WalkOutcome roots root target (levelShift level) s
          (walkToLevelCreate root target flags
            (levelShift level) s).1
          (walkToLevelCreate root target flags
            (levelShift level) s).2 :=
      walkLevelsCreate_outcome hRoot rfl hForest rfl
        ⟨level, Nat.zero_le level, by omega, rfl⟩
        (.inr hLinkable)
    simp only [hAligned, Bool.not_true, Bool.false_eq_true,
      if_false]
    cases hResult :
        walkToLevelCreate root target flags (levelShift level)
          s with
    | mk result s' =>
        rw [hResult] at hWalk
        cases result with
        | none =>
            exact MapOutcome.of_walk hWalk
        | some mapping =>
            rcases hWalk.arrives mapping rfl with
              ⟨level', table, hLt, hShift, hTable, rfl⟩
            have hSame : level' = level := by
              unfold levelShift at hShift
              omega
            subst hSame
            simp only [ne_eq, not_true_eq_false, false_or]
            by_cases hPresent :
                loadEntry s'.tables
                    (table + 8 * levelIndex target level') &&&
                  vmmPresent = 0
            · simp only [hPresent, not_true_eq_false, if_false]
              exact MapOutcome.of_store hWalk hRoot hLevel hWord
                hArguments hTarget hPhysical hTable
            · simp only [hPresent, not_false_eq_true, if_true]
              exact MapOutcome.of_walk hWalk
  · simp only [hAligned, Bool.not_false, if_true]
    exact MapOutcome.of_walk (WalkOutcome.stay hForest)

/- What an unmapping call does to every space. -/
structure UnmapOutcome
    (roots : List Nat)
    (root target : Nat)
    (s : Paging)
    (ok : Bool)
    (s' : Paging) : Prop where
  forest : PageForest roots s'
  adds : AddsFree roots s s'
  top : KeepsTop roots s s'
  free : s'.free = s.free
  refused : ok = false → s' = s
  unmapped :
    ok = true →
      ∃ leaf,
        leafOf s.tables root target = some leaf ∧
        (∀ other ∈ roots, ∀ virtualAddress,
          other = root ∨ Shared target →
          InPage virtualAddress target leaf.shift →
            leafOf s'.tables other virtualAddress = none) ∧
        (∀ other ∈ roots, ∀ virtualAddress,
          ¬ ((other = root ∨ Shared target) ∧
              InPage virtualAddress target leaf.shift) →
            leafOf s'.tables other virtualAddress =
              leafOf s.tables other virtualAddress)

theorem UnmapOutcome.stay
    {roots : List Nat}
    {root target : Nat}
    {s : Paging}
    (hForest : PageForest roots s) :
    UnmapOutcome roots root target s false s where
  forest := hForest
  adds := AddsFree.refl roots s
  top := fun _ _ _ _ hTable => hTable
  free := rfl
  refused := fun _ => rfl
  unmapped := by
    intro hTrue
    cases hTrue

theorem vmmUnmapPage_outcome
    {roots : List Nat}
    {root target : Nat}
    {s : Paging}
    (hForest : PageForest roots s)
    (hRoot : root ∈ roots) :
    UnmapOutcome roots root target s
      (vmmUnmapPage root target s).1
      (vmmUnmapPage root target s).2 := by
  rcases exists_ends s.tables root target with
    ⟨level, table, hEnds⟩
  unfold vmmUnmapPage
  rw [walkToExistingMapping_of_ends hEnds]
  by_cases hAligned : target &&& (pageSize - 1) ≠ 0
  · rw [if_pos hAligned]
    exact UnmapOutcome.stay hForest
  rw [if_neg hAligned]
  simp only
  by_cases hPresent :
      loadEntry s.tables
          (table + 8 * levelIndex target level) &&&
        vmmPresent = 0
  · simp only [hPresent, if_true]
    exact UnmapOutcome.stay hForest
  simp only [hPresent, if_false]
  split_ifs with hInside
  · exact UnmapOutcome.stay hForest
  have hLevel := hEnds.level_of_present hPresent
  have hPos : 0 < level := by omega
  rcases hForest.storeLeaf hRoot hEnds.1 hEnds.2.1
      (show 0 < 2 ^ 64 by omega) (.inr fun h => h.1 rfl)
      (.inl hPos) with ⟨hForest', hAdds, hTop, hLeaves⟩
  refine
    { forest := hForest'
      adds := hAdds
      top := hTop hPos
      free := rfl
      refused := ?_
      unmapped := ?_ }
  · intro hFalse
    cases hFalse
  · intro _
    have hLeaf := leafOf_of_ends hEnds
    simp only [hPresent, if_false] at hLeaf
    refine ⟨_, hLeaf, ?_, ?_⟩
    · intro other hOther v hSees hIn
      exact (hLeaves other hOther v).1
        (hSees.imp_right (fun h => ⟨hPos, h⟩))
        ((samePath_iff hLevel v target).mpr hIn)
    · intro other hOther v hMiss
      apply (hLeaves other hOther v).2
      rintro ⟨hSees, hPath⟩
      exact hMiss ⟨hSees.imp_right And.right,
        (samePath_iff hLevel v target).mp hPath⟩

end Vmm

end Whirliscope

------------------------------------------------------------
-- The Function That the Calls Implement
------------------------------------------------------------

namespace Whirliscope

namespace Vmm

open ByteMemory

/- A partial function on 48-bit addresses. -/
abbrev Translation :=
  Fin (2 ^ 48) → Option Leaf

/- The low 48 bits of an address. -/
def low48
    (virtualAddress : Nat) : Fin (2 ^ 48) :=
  ⟨virtualAddress % 2 ^ 48,
    Nat.mod_lt _ (Nat.two_pow_pos 48)⟩

/- Map a page, and nothing else. -/
def specMap
    (target physical shift : Nat)
    (f : Translation) : Translation :=
  fun v =>
    if low48 target ≤ v ∧
        v.1 < (low48 target).1 + 2 ^ shift then
      some
        { physical := physical + (v.1 - (low48 target).1)
          shift := shift }
    else
      f v

/- Unmap the page of an address, and nothing else. -/
def specUnmap
    (target : Nat)
    (f : Translation) : Translation :=
  match f (low48 target) with
  | none => f
  | some leaf => fun v =>
      if v.1 / 2 ^ leaf.shift =
          (low48 target).1 / 2 ^ leaf.shift then
        none
      else
        f v

/- The effect of a call that succeeds. -/
def specCall : PageCall → Translation → Translation
| .mapPageInSpace _ target physical _ =>
    specMap target physical 12
| .mapPage target physical _ => specMap target physical 12
| .mapHuge2m target physical _ => specMap target physical 21
| .mapHuge1g target physical _ => specMap target physical 30
| .unmapPage target => specUnmap target

/- A call that fails has no effect. -/
def specStep
    (call : PageCall)
    (ok : Bool)
    (f : Translation) : Translation :=
  if ok then specCall call f else f

/- The effect of a sequence of calls with their replies. -/
def specRun :
    List PageCall → List Bool → Translation → Translation
| call :: calls, ok :: replies, f =>
    specRun calls replies (specStep call ok f)
| _, _, f => f

/-
  The addresses and flags of the calls: physical addresses
  below 2^52, flags without address bits. A space that is
  named is the active one, or none.
-/
def PageCall.Valid
    (root : Nat) : PageCall → Prop
| .mapPageInSpace pml4Phys _ physical flags =>
    (pml4Phys = 0 ∨ pml4Phys = root) ∧
      MapArguments physical flags
| .mapPage _ physical flags => MapArguments physical flags
| .mapHuge2m _ physical flags => MapArguments physical flags
| .mapHuge1g _ physical flags => MapArguments physical flags
| .unmapPage _ => True

/- The translation of a space. -/
def translation
    (root : Nat)
    (s : Paging) : Translation :=
  fun v => leafOf s.tables root v

/- Bits above the 48th do not matter. -/
theorem leafOf_low48
    (tables : Bytes)
    (root virtualAddress : Nat) :
    leafOf tables root (low48 virtualAddress) =
      leafOf tables root virtualAddress := by
  have hPath :
      SamePath virtualAddress (low48 virtualAddress) 4 := by
    intro k hk
    rw [levelIndex_eq, levelIndex_eq]
    match k, hk with
    | 0, _ => simp only [low48, levelShift]; omega
    | 1, _ => simp only [low48, levelShift]; omega
    | 2, _ => simp only [low48, levelShift]; omega
    | 3, _ => simp only [low48, levelShift]; omega
  rcases exists_ends tables root virtualAddress with
    ⟨level, table, hEnds⟩
  have hIndex := hPath level hEnds.1
  have hEnds' :
      Ends tables root (low48 virtualAddress) level table := by
    refine ⟨hEnds.1, ?_, ?_⟩
    · rw [tableAt_samePath tables root
        (hPath.mono (Nat.le_of_lt hEnds.1))]
      exact hEnds.2.1
    · rw [← hIndex]
      exact hEnds.2.2
  rw [leafOf_of_ends hEnds, leafOf_of_ends hEnds', ← hIndex]
  simp only
  split_ifs with hPresent
  · rfl
  · have hOffset :
        (low48 virtualAddress).1 % 2 ^ levelShift level =
          virtualAddress % 2 ^ levelShift level := by
      rcases hEnds.level_of_present hPresent with
        rfl | rfl | rfl
      · simp only [low48, levelShift]; omega
      · simp only [low48, levelShift]; omega
      · simp only [low48, levelShift]; omega
    simp only [leafFrom, Nat.and_two_pow_sub_one_eq_mod,
      hOffset]

/- A successful mapping is the mapping of one page. -/
theorem MapOutcome.translation_eq
    {root target physical flags level : Nat}
    {s s' : Paging}
    {ok : Bool}
    (hLevel : level = 1 ∨ level = 2 ∨ level = 3)
    (hArguments : MapArguments physical flags)
    (hOutcome :
      MapOutcome [root] root target physical flags
        (levelShift level) s ok s') :
    translation root s' =
      if ok then
        specMap target physical (levelShift level)
          (translation root s)
      else
        translation root s := by
  have hRoot : root ∈ [root] := List.mem_singleton.mpr rfl
  funext v
  cases ok with
  | false =>
      exact hOutcome.refused rfl root hRoot v
  | true =>
      have hAligned := hOutcome.aligned rfl
      have hIn :
          InPage v target (levelShift level) ↔
            low48 target ≤ v ∧
              v.1 < (low48 target).1 +
                2 ^ levelShift level := by
        have hv := v.2
        rw [Fin.le_def]
        unfold InPage
        rcases hLevel with rfl | rfl | rfl
        · simp only [low48, levelShift] at hAligned ⊢
          omega
        · simp only [low48, levelShift] at hAligned ⊢
          omega
        · simp only [low48, levelShift] at hAligned ⊢
          omega
      rw [if_pos rfl]
      unfold specMap
      by_cases hPage : InPage v target (levelShift level)
      · rw [if_pos (hIn.mp hPage)]
        have hOffset :
            v.1 % 2 ^ levelShift level =
              v.1 - (low48 target).1 := by
          have hRange := hIn.mp hPage
          rw [Fin.le_def] at hRange
          rcases hLevel with rfl | rfl | rfl
          · simp only [low48, levelShift] at hAligned hRange ⊢
            omega
          · simp only [low48, levelShift] at hAligned hRange ⊢
            omega
          · simp only [low48, levelShift] at hAligned hRange ⊢
            omega
        have hMapped :=
          hOutcome.mapped rfl hArguments root hRoot v (.inl rfl)
            hPage
        rw [hOffset] at hMapped
        exact hMapped
      · rw [if_neg (fun h => hPage (hIn.mpr h))]
        exact hOutcome.kept rfl root hRoot v
          (fun h => hPage h.2)

/- A successful unmapping removes one page. -/
theorem UnmapOutcome.translation_eq
    {root target : Nat}
    {s s' : Paging}
    {ok : Bool}
    (hOutcome : UnmapOutcome [root] root target s ok s') :
    translation root s' =
      if ok then specUnmap target (translation root s)
      else translation root s := by
  have hRoot : root ∈ [root] := List.mem_singleton.mpr rfl
  cases ok with
  | false =>
      rw [hOutcome.refused rfl]
      rfl
  | true =>
      rcases hOutcome.unmapped rfl with
        ⟨leaf, hLeaf, hGone, hKept⟩
      have hFound :
          translation root s (low48 target) = some leaf := by
        rw [translation, leafOf_low48, hLeaf]
      rw [if_pos rfl]
      unfold specUnmap
      rw [hFound]
      funext v
      simp only
      have hIn :
          InPage v target leaf.shift ↔
            v.1 / 2 ^ leaf.shift =
              (low48 target).1 / 2 ^ leaf.shift := by
        unfold InPage
        rw [Nat.mod_eq_of_lt v.2]
        rfl
      by_cases hPage : InPage v target leaf.shift
      · rw [if_pos (hIn.mp hPage)]
        exact hGone root hRoot v (.inl rfl) hPage
      · rw [if_neg (fun h => hPage (hIn.mpr h))]
        exact hKept root hRoot v (fun h => hPage h.2)

/- One call on a tree. -/
theorem PageCall.run_refines
    {root : Nat}
    {s : Paging}
    (hForest : PageForest [root] s)
    {call : PageCall}
    (hValid : call.Valid root) :
    PageForest [root] (call.run root s).2 ∧
      translation root (call.run root s).2 =
        specStep call (call.run root s).1
          (translation root s) := by
  have hRoot : root ∈ [root] := List.mem_singleton.mpr rfl
  have hLinkable :
      ∀ target, Linkable [root] root target s :=
    fun _ => .inl fun _ hOther =>
      List.mem_singleton.mp hOther
  have hMap :
      ∀ level target physical flags,
        level = 1 ∨ level = 2 ∨ level = 3 →
        MapArguments physical flags →
          MapOutcome [root] root target physical flags
            (levelShift level) s
            (mapAtLevelInRoot root target physical
              (2 ^ levelShift level) (levelShift level) flags
              s).1
            (mapAtLevelInRoot root target physical
              (2 ^ levelShift level) (levelShift level) flags
              s).2 :=
    fun level target physical flags hLevel hArguments =>
      mapAtLevelInRoot_outcome hForest hRoot hLevel
        ⟨Nat.lt_trans hArguments.physical_lt (by decide),
          hArguments.flags_lt⟩
        (.inr hArguments) (hLinkable target)
  cases call with
  | mapPageInSpace pml4Phys target physical flags =>
      rcases hValid with ⟨rfl | rfl, hArguments⟩
      · exact ⟨hForest, rfl⟩
      · by_cases hNull : pml4Phys = 0
        · subst hNull
          exact ⟨hForest, rfl⟩
        · have hOutcome :=
            hMap 3 target physical flags (by omega) hArguments
          simp only [PageCall.run, vmmMapPageInSpace,
            if_neg hNull]
          exact ⟨hOutcome.forest,
            hOutcome.translation_eq (by omega) hArguments⟩
  | mapPage target physical flags =>
      have hOutcome :=
        hMap 3 target physical flags (by omega) hValid
      exact ⟨hOutcome.forest,
        hOutcome.translation_eq (by omega) hValid⟩
  | mapHuge2m target physical flags =>
      have hOutcome :=
        hMap 2 target physical flags (by omega) hValid
      exact ⟨hOutcome.forest,
        hOutcome.translation_eq (by omega) hValid⟩
  | mapHuge1g target physical flags =>
      have hOutcome :=
        hMap 1 target physical flags (by omega) hValid
      exact ⟨hOutcome.forest,
        hOutcome.translation_eq (by omega) hValid⟩
  | unmapPage target =>
      have hOutcome :
          UnmapOutcome [root] root target s
            (vmmUnmapPage root target s).1
            (vmmUnmapPage root target s).2 :=
        vmmUnmapPage_outcome hForest hRoot
      exact ⟨hOutcome.forest, hOutcome.translation_eq⟩

/- A sequence of calls on a tree. -/
theorem runPageCalls_forest
    {root : Nat}
    {calls : List PageCall}
    {s : Paging}
    (hForest : PageForest [root] s)
    (hValid : ∀ call ∈ calls, call.Valid root) :
    PageForest [root] (runPageCalls root calls s).2 ∧
      translation root (runPageCalls root calls s).2 =
        specRun calls (runPageCalls root calls s).1
          (translation root s) := by
  induction calls generalizing s with
  | nil => exact ⟨hForest, rfl⟩
  | cons call calls ih =>
      rcases PageCall.run_refines hForest
          (hValid call List.mem_cons_self) with
        ⟨hNext, hStep⟩
      rcases ih hNext
          (fun other hOther =>
            hValid other (List.mem_cons_of_mem call hOther))
        with ⟨hLast, hRun⟩
      refine ⟨hLast, ?_⟩
      change translation root
        (runPageCalls root calls (call.run root s).2).2 = _
      rw [hRun, hStep]
      rfl

/-
  The translation of a space is a partial function on 48-bit
  addresses, and the calls change it as the page operations
  on that function do.
-/
theorem runPageCalls_refines
    {root : Nat}
    {s : Paging}
    (hTree : PageTree root s)
    {calls : List PageCall}
    (hValid : ∀ call ∈ calls, call.Valid root)
    {replies : List Bool}
    {s' : Paging}
    (hRun : runPageCalls root calls s = (replies, s')) :
    PageTree root s' ∧
      (∀ virtualAddress,
        vmmVirtToPhys s.tables root virtualAddress =
          (translation root s (low48 virtualAddress)).map
            Leaf.physical) ∧
      (∀ virtualAddress,
        vmmVirtToPhys s'.tables root virtualAddress =
          (specRun calls replies (translation root s)
            (low48 virtualAddress)).map Leaf.physical) := by
  have hForest := (pageTree_iff_forest root s).mp hTree
  rcases runPageCalls_forest hForest hValid with
    ⟨hForest', hTranslation⟩
  rw [hRun] at hForest' hTranslation
  refine ⟨(pageTree_iff_forest root s').mpr hForest', ?_, ?_⟩
  · intro v
    rw [vmmVirtToPhys_eq_leafOf, translation, leafOf_low48]
  · intro v
    rw [← hTranslation, vmmVirtToPhys_eq_leafOf, translation,
      leafOf_low48]

/- Without entries there is only the root. -/
theorem pageTree_zeros
    {root : Nat}
    {free : List Nat}
    (hRoot : root % 4096 = 0)
    (hFree : root ∉ free)
    (hNodup : free.Nodup)
    (hFrame : ∀ page ∈ free, IsFrame page) :
    PageTree root { tables := zeros, free := free } := by
  have hRootOnly :
      ∀ v level table,
        tableAt zeros root v level = some table →
          level = 0 ∧ table = root := by
    intro v level table hTable
    cases level with
    | zero =>
        cases hTable
        exact ⟨rfl, rfl⟩
    | succ level =>
        rcases tableAt_isSome_of_le hTable
            (show 1 ≤ level + 1 by omega) with ⟨above, hOne⟩
        simp only [tableAt, loadEntry, getLE_zeros] at hOne
        rw [if_neg (fun h => h.1 rfl)] at hOne
        cases hOne
  refine
    { root_mod := hRoot
      distinct := ?_
      not_free := ?_
      free_nodup := hNodup
      free_frame := hFrame }
  · intro left right level level' table _ _ hLeft hRight
    rcases hRootOnly left level table hLeft with ⟨rfl, -⟩
    rcases hRootOnly right level' table hRight with ⟨rfl, -⟩
    exact ⟨rfl, fun k hk => absurd hk (Nat.not_lt_zero k)⟩
  · intro v level table _ hTable
    rw [(hRootOnly v level table hTable).2]
    exact hFree

/- A space with an empty root and four free frames. -/
def emptySpace : Paging where
  tables := zeros
  free := [0x2000, 0x3000, 0x4000, 0x5000]

theorem emptySpace_tree :
    PageTree 0x1000 emptySpace :=
  pageTree_zeros (by decide) (by decide) (by decide)
    (by decide)

/- Two pages are mapped, and the first is unmapped again. -/
def sampleCalls : List PageCall :=
  [.mapPage 0x400000 0x7000 vmmWritable,
    .mapPage 0x401000 0x9000 vmmUser,
    .mapPage 0x400000 0x8000 0,
    .unmapPage 0x400000]

theorem sampleCalls_refine :
    PageTree 0x1000 emptySpace ∧
      (runPageCalls 0x1000 sampleCalls emptySpace).1 =
        [true, true, false, true] ∧
      vmmVirtToPhys
          (runPageCalls 0x1000 sampleCalls
            emptySpace).2.tables
          0x1000 0x401234 =
        some 0x9234 ∧
      vmmVirtToPhys
          (runPageCalls 0x1000 sampleCalls
            emptySpace).2.tables
          0x1000 0x400234 =
        none := by
  have hValid :
      ∀ call ∈ sampleCalls, call.Valid 0x1000 := by
    intro call hCall
    simp only [sampleCalls, List.mem_cons,
      List.not_mem_nil, or_false] at hCall
    rcases hCall with rfl | rfl | rfl | rfl
    · exact ⟨by decide, by decide, by decide⟩
    · exact ⟨by decide, by decide, by decide⟩
    · exact ⟨by decide, by decide, by decide⟩
    · trivial
  have hReplies :
      (runPageCalls 0x1000 sampleCalls emptySpace).1 =
        [true, true, false, true] := by
    decide
  have hRun :
      runPageCalls 0x1000 sampleCalls emptySpace =
        ([true, true, false, true],
          (runPageCalls 0x1000 sampleCalls emptySpace).2) := by
    rw [← hReplies]
  rcases runPageCalls_refines emptySpace_tree hValid hRun with
    ⟨-, -, hAfter⟩
  refine ⟨emptySpace_tree, hReplies, ?_, ?_⟩
  · rw [hAfter]
    decide
  · rw [hAfter]
    decide

end Vmm

end Whirliscope
