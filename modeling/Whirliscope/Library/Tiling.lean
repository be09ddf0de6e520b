import Mathlib.Data.List.Chain

/-
  Blocks that tile a range of addresses, and doubly linked
  lists over them.

  A block has a header of `overhead` bytes followed by its
  payload, and blocks follow each other without gaps. The
  assertion that a header is stored at an address is a
  parameter of `Linked`.

  Main declarations:
    * `Block`, `stop`, `At`
    * `Linked`, `linked_append_iff`
    * `At.disjoint`
    * `NoAdjacentFree`, `usedBytes`
-/

------------------------------------------------------------
-- Blocks and Their Addresses
------------------------------------------------------------

namespace Tiling

structure Block where
  size : Nat
  free : Bool
deriving DecidableEq, Repr

/- The bytes of a block with its header. -/
def Block.span
    (overhead : Nat)
    (block : Block) : Nat :=
  overhead + block.size

variable {overhead : Nat}

/- The end of blocks that are laid out from `address` on. -/
def stop
    (overhead : Nat) :
    Nat → List Block → Nat
| address, [] => address
| address, block :: rest =>
    stop overhead (address + block.span overhead) rest

@[simp] theorem stop_nil
    (address : Nat) :
    stop overhead address [] = address :=
  rfl

@[simp] theorem stop_cons
    (address : Nat)
    (block : Block)
    (rest : List Block) :
    stop overhead address (block :: rest) =
      stop overhead (address + block.span overhead) rest :=
  rfl

@[simp] theorem stop_append
    (address : Nat)
    (first second : List Block) :
    stop overhead address (first ++ second) =
      stop overhead (stop overhead address first) second := by
  induction first generalizing address with
  | nil => rfl
  | cons block rest ih => exact ih _

theorem le_stop
    (address : Nat)
    (blocks : List Block) :
    address ≤ stop overhead address blocks := by
  induction blocks generalizing address with
  | nil => exact le_refl _
  | cons block rest ih =>
      exact le_trans (Nat.le_add_right _ _) (ih _)

/- Each block takes at least its header. -/
theorem length_le_stop
    (address : Nat)
    (blocks : List Block) :
    address + overhead * blocks.length ≤
      stop overhead address blocks := by
  induction blocks generalizing address with
  | nil => simp
  | cons block rest ih =>
      have hRest := ih (address + block.span overhead)
      rw [List.length_cons, stop_cons, Nat.mul_add]
      unfold Block.span at *
      omega

/- Blocks of aligned sizes end at aligned addresses. -/
theorem dvd_stop
    {alignment address : Nat}
    {blocks : List Block}
    (hAddress : alignment ∣ address)
    (hOverhead : alignment ∣ overhead)
    (hSizes : ∀ block ∈ blocks, alignment ∣ block.size) :
    alignment ∣ stop overhead address blocks := by
  induction blocks generalizing address with
  | nil => exact hAddress
  | cons block rest ih =>
      apply ih
      · exact Nat.dvd_add hAddress
          (Nat.dvd_add hOverhead
            (hSizes block List.mem_cons_self))
      · intro other hOther
        exact hSizes other (List.mem_cons_of_mem _ hOther)

/- The address of the last block, or `previous`. -/
def lastAddress
    (overhead : Nat) :
    Nat → Nat → List Block → Nat
| previous, _, [] => previous
| _, address, block :: rest =>
    lastAddress overhead address
      (address + block.span overhead) rest

@[simp] theorem lastAddress_nil
    (previous address : Nat) :
    lastAddress overhead previous address [] = previous :=
  rfl

@[simp] theorem lastAddress_cons
    (previous address : Nat)
    (block : Block)
    (rest : List Block) :
    lastAddress overhead previous address (block :: rest) =
      lastAddress overhead address
        (address + block.span overhead) rest :=
  rfl

@[simp] theorem lastAddress_append
    (previous address : Nat)
    (first second : List Block) :
    lastAddress overhead previous address (first ++ second) =
      lastAddress overhead
        (lastAddress overhead previous address first)
        (stop overhead address first) second := by
  induction first generalizing previous address with
  | nil => rfl
  | cons block rest ih => exact ih _ _

/- The address of the first block, or `tail`. -/
def entry
    (tail address : Nat)
    (blocks : List Block) : Nat :=
  if blocks = [] then tail else address

@[simp] theorem entry_nil
    (tail address : Nat) :
    entry tail address [] = tail :=
  rfl

@[simp] theorem entry_cons
    (tail address : Nat)
    (block : Block)
    (rest : List Block) :
    entry tail address (block :: rest) = address :=
  rfl

theorem entry_append_cons
    (tail address : Nat)
    (first : List Block)
    (block : Block)
    (rest : List Block) :
    entry tail address (first ++ block :: rest) =
      address := by
  cases first <;> rfl

/- The block at an address of a tiling. -/
def At
    (overhead base : Nat)
    (blocks : List Block)
    (address : Nat)
    (block : Block) : Prop :=
  ∃ before after,
    blocks = before ++ block :: after ∧
      address = stop overhead base before

@[simp] theorem at_nil_iff
    (base address : Nat)
    (block : Block) :
    ¬ At overhead base [] address block := by
  rintro ⟨before, after, hNil, -⟩
  cases before <;> cases hNil

@[simp] theorem at_cons_iff
    (base address : Nat)
    (first block : Block)
    (rest : List Block) :
    At overhead base (first :: rest) address block ↔
      (address = base ∧ block = first) ∨
        At overhead (base + first.span overhead) rest
          address block := by
  constructor
  · rintro ⟨before, after, hSplit, rfl⟩
    cases before with
    | nil =>
        rw [List.nil_append, List.cons.injEq] at hSplit
        exact .inl ⟨rfl, hSplit.1.symm⟩
    | cons other before =>
        rw [List.cons_append, List.cons.injEq] at hSplit
        rcases hSplit with ⟨rfl, rfl⟩
        exact .inr ⟨before, after, rfl, rfl⟩
  · rintro (⟨rfl, rfl⟩ | ⟨before, after, rfl, rfl⟩)
    · exact ⟨[], rest, rfl, rfl⟩
    · exact ⟨first :: before, after, rfl, rfl⟩

@[simp] theorem at_append_iff
    (base address : Nat)
    (block : Block)
    (first second : List Block) :
    At overhead base (first ++ second) address block ↔
      At overhead base first address block ∨
        At overhead (stop overhead base first) second
          address block := by
  induction first generalizing base with
  | nil => simp
  | cons other rest ih => simp [ih, or_assoc]

theorem At.le
    {base address : Nat}
    {blocks : List Block}
    {block : Block}
    (hAt : At overhead base blocks address block) :
    base ≤ address ∧
      address + block.span overhead ≤
        stop overhead base blocks := by
  rcases hAt with ⟨before, after, rfl, rfl⟩
  refine ⟨le_stop base before, ?_⟩
  rw [stop_append, stop_cons]
  exact le_stop _ after

/- Two blocks at different addresses do not overlap. -/
theorem At.disjoint
    {base address address' : Nat}
    {blocks : List Block}
    {block block' : Block}
    (hAt : At overhead base blocks address block)
    (hAt' : At overhead base blocks address' block') :
    (address = address' ∧ block = block') ∨
      address + block.span overhead ≤ address' ∨
      address' + block'.span overhead ≤ address := by
  rcases hAt with ⟨before, after, rfl, rfl⟩
  rcases hAt' with ⟨before', after', hSame, rfl⟩
  rcases List.append_eq_append_iff.mp hSame with
    ⟨middle, hBefore, hAfter⟩ | ⟨middle, hBefore, hAfter⟩
  · cases middle with
    | nil =>
        rw [List.append_nil] at hBefore
        rw [List.nil_append, List.cons.injEq] at hAfter
        exact .inl ⟨by rw [hBefore], hAfter.1⟩
    | cons first rest =>
        rw [List.cons_append, List.cons.injEq] at hAfter
        refine .inr (.inl ?_)
        rw [hBefore, stop_append, ← hAfter.1, stop_cons]
        exact le_stop _ rest
  · cases middle with
    | nil =>
        rw [List.append_nil] at hBefore
        rw [List.nil_append, List.cons.injEq] at hAfter
        exact .inl ⟨by rw [hBefore], hAfter.1.symm⟩
    | cons first rest =>
        rw [List.cons_append, List.cons.injEq] at hAfter
        refine .inr (.inr ?_)
        rw [hBefore, stop_append, ← hAfter.1, stop_cons]
        exact le_stop _ rest

/- A block lies on one side of a cut between blocks. -/
theorem At.cut
    {base address : Nat}
    {front back : List Block}
    {block : Block}
    (hAt : At overhead base (front ++ back) address block) :
    address + block.span overhead ≤
        stop overhead base front ∨
      stop overhead base front ≤ address := by
  rcases (at_append_iff _ _ _ _ _).mp hAt with
    hFront | hBack
  · exact .inl hFront.le.2
  · exact .inr hBack.le.1

end Tiling

------------------------------------------------------------
-- Linked Blocks
------------------------------------------------------------

namespace Tiling

variable {overhead : Nat}

/-
  The headers of consecutive blocks, linked both ways. The
  first block points back to `previous`, the last one
  forward to `tail`.
-/
def Linked
    (overhead : Nat)
    (holds : Nat → Block → Nat → Nat → Prop)
    (tail : Nat) :
    Nat → Nat → List Block → Prop
| _, _, [] => True
| previous, address, block :: rest =>
    holds address block previous
        (entry tail (address + block.span overhead) rest) ∧
      Linked overhead holds tail address
        (address + block.span overhead) rest

theorem linked_append_iff
    (holds : Nat → Block → Nat → Nat → Prop)
    (tail previous address : Nat)
    (first second : List Block) :
    Linked overhead holds tail previous address
        (first ++ second) ↔
      Linked overhead holds
          (entry tail (stop overhead address first) second)
          previous address first ∧
        Linked overhead holds tail
          (lastAddress overhead previous address first)
          (stop overhead address first) second := by
  induction first generalizing previous address with
  | nil => simp [Linked]
  | cons block rest ih =>
      have hEntry :
          entry tail (address + block.span overhead)
              (rest ++ second) =
            entry
              (entry tail
                (stop overhead
                  (address + block.span overhead) rest)
                second)
              (address + block.span overhead) rest := by
        cases rest <;> rfl
      simp only [List.cons_append, Linked, ih, hEntry,
        stop_cons, lastAddress_cons, and_assoc]

/- The header in the middle of a list. -/
theorem linked_middle_iff
    (holds : Nat → Block → Nat → Nat → Prop)
    (tail previous address : Nat)
    (before : List Block)
    (block : Block)
    (after : List Block) :
    Linked overhead holds tail previous address
        (before ++ block :: after) ↔
      Linked overhead holds (stop overhead address before)
          previous address before ∧
        holds (stop overhead address before) block
          (lastAddress overhead previous address before)
          (entry tail
            (stop overhead address before +
              block.span overhead) after) ∧
        Linked overhead holds tail
          (stop overhead address before)
          (stop overhead address before +
            block.span overhead) after := by
  rw [linked_append_iff]
  rfl

/- A change that keeps the headers of a list. -/
theorem Linked.mono_at
    {holds holds' : Nat → Block → Nat → Nat → Prop}
    {tail previous address : Nat}
    {blocks : List Block}
    (hLinked :
      Linked overhead holds tail previous address blocks)
    (hKept :
      ∀ a block p n, At overhead address blocks a block →
        holds a block p n → holds' a block p n) :
    Linked overhead holds' tail previous address blocks := by
  induction blocks generalizing previous address with
  | nil => trivial
  | cons block rest ih =>
      refine ⟨?_, ih hLinked.2 ?_⟩
      · exact hKept address block _ _
          ((at_cons_iff _ _ _ _ _).mpr (.inl ⟨rfl, rfl⟩))
          hLinked.1
      · intro a other p n hAt
        exact hKept a other p n
          ((at_cons_iff _ _ _ _ _).mpr (.inr hAt))

theorem Linked.mono
    {holds holds' : Nat → Block → Nat → Nat → Prop}
    {tail previous address : Nat}
    {blocks : List Block}
    (hLinked :
      Linked overhead holds tail previous address blocks)
    (hKept :
      ∀ a block p n, address ≤ a →
        a + block.span overhead ≤
            stop overhead address blocks →
          holds a block p n → holds' a block p n) :
    Linked overhead holds' tail previous address blocks := by
  apply hLinked.mono_at
  intro a block p n hAt
  exact hKept a block p n hAt.le.1 hAt.le.2

/- The first block gets another predecessor. -/
theorem Linked.relink
    {holds holds' : Nat → Block → Nat → Nat → Prop}
    {tail previous previous' address : Nat}
    {blocks : List Block}
    (hLinked :
      Linked overhead holds tail previous address blocks)
    (hFirst :
      ∀ block rest n, blocks = block :: rest →
        holds address block previous n →
          holds' address block previous' n)
    (hKept :
      ∀ a block p n,
        (∀ first ∈ blocks.head?,
          address + first.span overhead ≤ a) →
        a + block.span overhead ≤
            stop overhead address blocks →
          holds a block p n → holds' a block p n) :
    Linked overhead holds' tail previous' address
      blocks := by
  cases blocks with
  | nil => trivial
  | cons block rest =>
      refine ⟨hFirst block rest _ rfl hLinked.1, ?_⟩
      apply hLinked.2.mono
      intro a other p n hAddress hStop
      apply hKept a other p n
      · intro first hFirst
        rw [List.head?_cons, Option.mem_some_iff] at hFirst
        exact hFirst ▸ hAddress
      · exact hStop

end Tiling

------------------------------------------------------------
-- Free and Used Blocks
------------------------------------------------------------

namespace Tiling

variable {overhead : Nat}

/- No two blocks next to each other are both free. -/
def NoAdjacentFree
    (blocks : List Block) : Prop :=
  blocks.IsChain fun left right =>
    ¬ (left.free = true ∧ right.free = true)

/- The sum of the sizes of the used blocks. -/
def usedBytes : List Block → Nat
| [] => 0
| block :: rest =>
    (if block.free then 0 else block.size) + usedBytes rest

@[simp] theorem usedBytes_nil :
    usedBytes [] = 0 :=
  rfl

@[simp] theorem usedBytes_cons
    (block : Block)
    (rest : List Block) :
    usedBytes (block :: rest) =
      (if block.free then 0 else block.size) +
        usedBytes rest :=
  rfl

@[simp] theorem usedBytes_append
    (first second : List Block) :
    usedBytes (first ++ second) =
      usedBytes first + usedBytes second := by
  induction first with
  | nil => simp
  | cons block rest ih => simp [ih, Nat.add_assoc]

theorem usedBytes_le
    (address : Nat)
    (blocks : List Block) :
    address + usedBytes blocks ≤
      stop overhead address blocks := by
  induction blocks generalizing address with
  | nil => exact le_refl _
  | cons block rest ih =>
      have hRest := ih (address + block.span overhead)
      rw [usedBytes_cons, stop_cons]
      unfold Block.span at *
      split_ifs <;> omega

/- A block may be replaced by one that is not freer. -/
theorem NoAdjacentFree.replace
    {before after : List Block}
    {block block' : Block}
    (hFree : NoAdjacentFree (before ++ block :: after))
    (hBlock : block'.free = true → block.free = true) :
    NoAdjacentFree (before ++ block' :: after) := by
  unfold NoAdjacentFree at *
  rw [List.isChain_append, List.isChain_cons_iff] at *
  rcases hFree with ⟨hBefore, hAfter, hMiddle⟩
  refine ⟨hBefore, ?_, ?_⟩
  · rcases hAfter with hNil | ⟨next, rest, hNext, hRest, hEq⟩
    · exact .inl hNil
    · refine .inr ⟨next, rest, ?_, hRest, hEq⟩
      exact fun hBoth => hNext ⟨hBlock hBoth.1, hBoth.2⟩
  · intro left hLeft right hRight
    rw [List.head?_cons, Option.mem_some_iff] at hRight
    subst hRight
    intro hBoth
    exact hMiddle left hLeft block rfl
      ⟨hBoth.1, hBlock hBoth.2⟩

/- A used block separates two lists. -/
theorem NoAdjacentFree.around
    {before after : List Block}
    {used : Block}
    (hBefore : NoAdjacentFree before)
    (hAfter : NoAdjacentFree after)
    (hUsed : used.free = false) :
    NoAdjacentFree (before ++ used :: after) := by
  unfold NoAdjacentFree at *
  rw [List.isChain_append]
  refine ⟨hBefore, ?_, ?_⟩
  · rw [List.isChain_cons]
    refine ⟨?_, hAfter⟩
    intro right _ hBoth
    exact Bool.false_ne_true (hUsed.symm.trans hBoth.1)
  · intro left _ right hRight hBoth
    rw [List.head?_cons, Option.mem_some_iff] at hRight
    subst hRight
    exact Bool.false_ne_true (hUsed.symm.trans hBoth.2)

/- A used block may be inserted anywhere. -/
theorem NoAdjacentFree.insert
    {before after : List Block}
    {used : Block}
    (hFree : NoAdjacentFree (before ++ after))
    (hUsed : used.free = false) :
    NoAdjacentFree (before ++ used :: after) := by
  have hParts := List.isChain_append.mp hFree
  exact NoAdjacentFree.around hParts.1 hParts.2.1 hUsed

/- The parts before and after a block. -/
theorem NoAdjacentFree.parts
    {before after : List Block}
    {block : Block}
    (hFree : NoAdjacentFree (before ++ block :: after)) :
    NoAdjacentFree before ∧ NoAdjacentFree after := by
  unfold NoAdjacentFree at *
  rw [List.isChain_append, List.isChain_cons] at hFree
  exact ⟨hFree.1, hFree.2.1.2⟩

/- Two lists join at a block that is not free. -/
theorem NoAdjacentFree.join
    {before after : List Block}
    (hBefore : NoAdjacentFree before)
    (hAfter : NoAdjacentFree after)
    (hLast :
      ∀ last ∈ before.getLast?, last.free = false) :
    NoAdjacentFree (before ++ after) := by
  unfold NoAdjacentFree at *
  rw [List.isChain_append]
  refine ⟨hBefore, hAfter, ?_⟩
  intro left hLeft right _ hBoth
  exact Bool.false_ne_true
    ((hLast left hLeft).symm.trans hBoth.1)

/- The last block of a list is fused with the next one. -/
theorem NoAdjacentFree.fuse
    {before after : List Block}
    {last first fused : Block}
    (hBefore : NoAdjacentFree (before ++ [last]))
    (hAfter : NoAdjacentFree (first :: after))
    (hLast : fused.free = true → last.free = true)
    (hFirst : fused.free = true → first.free = true) :
    NoAdjacentFree (before ++ fused :: after) := by
  have hFused : NoAdjacentFree (before ++ [fused]) :=
    hBefore.replace hLast
  have hRest : NoAdjacentFree (fused :: after) :=
    @NoAdjacentFree.replace [] after first fused hAfter hFirst
  unfold NoAdjacentFree at *
  rw [List.isChain_append] at *
  refine ⟨hFused.1, hRest, ?_⟩
  intro left hLeft right hRight
  exact hFused.2.2 left hLeft right hRight

end Tiling
