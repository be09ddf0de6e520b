import Whirliscope.Memory.AddressSpaces

/-
  Frames in use, and what keeps the spaces as they are.

  A frame that is handed out is neither free nor a table until
  it is freed. A new space adds its root to the forest. The
  block operations of the heap change no space.

  Key definitions include:
    * `Outstanding`
    * `Light`

  Main theorem:
    * `PageForest.create`
-/

------------------------------------------------------------
-- Frames in Use
------------------------------------------------------------

namespace Whirliscope

namespace Vmm

open ByteMemory

/- Frames that are neither free nor tables. -/
structure Outstanding
    (roots : List Nat)
    (s : Paging)
    (frames : List Nat) : Prop where
  nodup : frames.Nodup
  frame : ∀ page ∈ frames, IsFrame page
  not_free : ∀ page ∈ frames, page ∉ s.free
  not_table :
    ∀ page ∈ frames, ∀ root ∈ roots,
      ∀ virtualAddress level, level < 4 →
        tableAt s.tables root virtualAddress level ≠
          some page

theorem Outstanding.nil
    (roots : List Nat)
    (s : Paging) :
    Outstanding roots s [] where
  nodup := List.nodup_nil
  frame := by simp
  not_free := by simp
  not_table := by simp

/- New tables come from the free list, not from frames in use. -/
theorem Outstanding.of_adds
    {roots frames : List Nat}
    {s s' : Paging}
    (hFrames : Outstanding roots s frames)
    (hAdds : AddsFree roots s s')
    (hFree : s'.free ⊆ s.free) :
    Outstanding roots s' frames where
  nodup := hFrames.nodup
  frame := hFrames.frame
  not_free := by
    intro page hPage hMem
    exact hFrames.not_free page hPage (hFree hMem)
  not_table := by
    intro page hPage root hRoot v level hLevel hTable
    rcases hAdds root hRoot v level page hLevel hTable with
      hOld | hNew
    · exact hFrames.not_table page hPage root hRoot v level
        hLevel hOld
    · exact hFrames.not_free page hPage hNew

theorem Outstanding.subset
    {roots frames fewer : List Nat}
    {s : Paging}
    (hFrames : Outstanding roots s frames)
    (hFewer : fewer.Sublist frames) :
    Outstanding roots s fewer where
  nodup := hFewer.nodup hFrames.nodup
  frame := fun page hPage =>
    hFrames.frame page (hFewer.subset hPage)
  not_free := fun page hPage =>
    hFrames.not_free page (hFewer.subset hPage)
  not_table := fun page hPage =>
    hFrames.not_table page (hFewer.subset hPage)

theorem Outstanding.perm
    {roots frames other : List Nat}
    {s : Paging}
    (hFrames : Outstanding roots s frames)
    (hPerm : frames.Perm other) :
    Outstanding roots s other where
  nodup := hPerm.nodup_iff.mp hFrames.nodup
  frame := fun page hPage =>
    hFrames.frame page (hPerm.mem_iff.mpr hPage)
  not_free := fun page hPage =>
    hFrames.not_free page (hPerm.mem_iff.mpr hPage)
  not_table := fun page hPage =>
    hFrames.not_table page (hPerm.mem_iff.mpr hPage)

/- A forest with fewer roots, or in another order. -/
theorem PageForest.of_roots
    {roots fewer : List Nat}
    {s : Paging}
    (hForest : PageForest roots s)
    (hFewer : fewer ⊆ roots) :
    PageForest fewer s where
  root_mod := fun root hRoot =>
    hForest.root_mod root (hFewer hRoot)
  distinct := fun root root' left right level level' table
      hRoot hRoot' =>
    hForest.distinct root root' left right level level' table
      (hFewer hRoot) (hFewer hRoot')
  shared := fun root root' v hRoot hRoot' =>
    hForest.shared root root' v (hFewer hRoot)
      (hFewer hRoot')
  not_free := fun root v level table hRoot =>
    hForest.not_free root v level table (hFewer hRoot)
  free_nodup := hForest.free_nodup
  free_frame := hForest.free_frame

/- A forest with a shorter free list. -/
theorem PageForest.of_free
    {roots : List Nat}
    {s : Paging}
    {free : List Nat}
    (hForest : PageForest roots s)
    (hFree : free.Sublist s.free) :
    PageForest roots { s with free := free } where
  root_mod := hForest.root_mod
  distinct := hForest.distinct
  shared := hForest.shared
  not_free := fun root v level table hRoot hLevel hTable hMem =>
    hForest.not_free root v level table hRoot hLevel hTable
      (hFree.subset hMem)
  free_nodup := hFree.nodup hForest.free_nodup
  free_frame := fun page hPage =>
    hForest.free_frame page (hFree.subset hPage)

/- A page that is handed out is in use afterwards. -/
theorem PageForest.alloc
    {roots frames rest : List Nat}
    {page : Nat}
    {s : Paging}
    (hForest : PageForest roots s)
    (hFrames : Outstanding roots s frames)
    (hFree : s.free = page :: rest) :
    PageForest roots { s with free := rest } ∧
      Outstanding roots { s with free := rest }
        (frames ++ [page]) := by
  have hMem : page ∈ s.free := by
    rw [hFree]
    exact List.mem_cons_self
  have hNodup := hForest.free_nodup
  rw [hFree, List.nodup_cons] at hNodup
  have hRest : rest.Sublist s.free := by
    rw [hFree]
    exact List.sublist_cons_self page rest
  refine ⟨hForest.of_free hRest, ?_⟩
  refine
    { nodup := ?_, frame := ?_, not_free := ?_,
      not_table := ?_ }
  · rw [List.nodup_append]
    refine ⟨hFrames.nodup, by simp, ?_⟩
    intro other hOther single hSingle
    rw [List.mem_singleton.mp hSingle]
    rintro rfl
    exact hFrames.not_free other hOther hMem
  · intro other hOther
    rcases List.mem_append.mp hOther with hOld | hNew
    · exact hFrames.frame other hOld
    · rw [List.mem_singleton.mp hNew]
      exact hForest.free_frame page hMem
  · intro other hOther hIn
    rcases List.mem_append.mp hOther with hOld | hNew
    · exact hFrames.not_free other hOld (hRest.subset hIn)
    · rw [List.mem_singleton.mp hNew] at hIn
      exact hNodup.1 hIn
  · intro other hOther root hRoot v level hLevel hTable
    rcases List.mem_append.mp hOther with hOld | hNew
    · exact hFrames.not_table other hOld root hRoot v level
        hLevel hTable
    · rw [List.mem_singleton.mp hNew] at hTable
      exact hForest.not_free root v level page hRoot hLevel
        hTable hMem

/- A page in use may be freed. -/
theorem PageForest.free
    {roots frames : List Nat}
    {page : Nat}
    {s : Paging}
    (hForest : PageForest roots s)
    (hFrames : Outstanding roots s (page :: frames)) :
    PageForest roots (pmmFreePage page s) ∧
      Outstanding roots (pmmFreePage page s) frames := by
  have hFrame := hFrames.frame page List.mem_cons_self
  have hNodup := List.nodup_cons.mp hFrames.nodup
  have hPush :
      pmmFreePage page s =
        { s with free := page :: s.free } := by
    unfold pmmFreePage
    rw [if_neg]
    rintro (hZero | hMod)
    · exact hFrame.1 hZero
    · exact hMod hFrame.2.1
  rw [hPush]
  constructor
  · refine
      { root_mod := hForest.root_mod
        distinct := hForest.distinct
        shared := hForest.shared
        not_free := ?_
        free_nodup := ?_
        free_frame := ?_ }
    · intro root v level table hRoot hLevel hTable hMem
      rcases List.mem_cons.mp hMem with rfl | hOld
      · exact hFrames.not_table table List.mem_cons_self root
          hRoot v level hLevel hTable
      · exact hForest.not_free root v level table hRoot
          hLevel hTable hOld
    · exact List.nodup_cons.mpr
        ⟨hFrames.not_free page List.mem_cons_self,
          hForest.free_nodup⟩
    · intro other hOther
      rcases List.mem_cons.mp hOther with rfl | hOld
      · exact hFrame
      · exact hForest.free_frame other hOld
  · have hRest :=
      hFrames.subset (List.sublist_cons_self page frames)
    refine
      { nodup := hRest.nodup
        frame := hRest.frame
        not_free := ?_
        not_table := hRest.not_table }
    intro other hOther hMem
    rcases List.mem_cons.mp hMem with rfl | hOld
    · exact hNodup.1 hOther
    · exact hRest.not_free other hOther hOld

end Vmm

end Whirliscope

------------------------------------------------------------
-- A New Space
------------------------------------------------------------

namespace Whirliscope

namespace Vmm

open ByteMemory

/- The entries of a new root. -/
theorem loadEntry_copyKernelHalf_new
    {tables : Bytes}
    {source page index : Nat}
    (hNe : source ≠ page)
    (hSource : source % 4096 = 0)
    (hPage : page % 4096 = 0)
    (hIndex : index < 512) :
    loadEntry
        (write (write tables page pageSize zeros)
          (page + 8 * 256) (8 * 256)
          (slice (write tables page pageSize zeros)
            (source + 8 * 256)))
        (page + 8 * index) =
      if index < 256 then 0
      else loadEntry tables (source + 8 * index) := by
  split_ifs with hUser
  · unfold loadEntry
    rw [getLE_write_of_disjoint (by omega)]
    exact loadEntry_clear_same tables page hIndex
  · unfold loadEntry
    rw [getLE_write_of_subset (by omega) (by omega),
      getLE_slice]
    have hAddress :
        source + 8 * 256 +
            (page + 8 * index - (page + 8 * 256)) =
          source + 8 * index := by
      omega
    rw [hAddress]
    exact loadEntry_clear_of_ne hNe hPage hSource hIndex

/- The entries of other frames. -/
theorem loadEntry_copyKernelHalf_old
    {tables copied : Bytes}
    {page table index : Nat}
    (hNe : table ≠ page)
    (hTable : table % 4096 = 0)
    (hPage : page % 4096 = 0)
    (hIndex : index < 512) :
    loadEntry
        (write (write tables page pageSize zeros)
          (page + 8 * 256) (8 * 256) copied)
        (table + 8 * index) =
      loadEntry tables (table + 8 * index) := by
  unfold loadEntry
  rw [getLE_write_of_disjoint (by omega)]
  exact loadEntry_clear_of_ne hNe hPage hTable hIndex

/- What creating a space does. -/
theorem PageForest.create
    {roots rest : List Nat}
    {source page : Nat}
    {s : Paging}
    (hForest : PageForest roots s)
    (hSource : source ∈ roots)
    (hFree : s.free = page :: rest) :
    let s' :=
      copyKernelHalf source page
        (({ s with free := rest } : Paging).clear page)
    PageForest (page :: roots) s' ∧ KeepsTop roots s s' ∧
      AddsFree roots s s' ∧ SameLeaves roots s s' := by
  intro s'
  have hMem : page ∈ s.free := by
    rw [hFree]
    exact List.mem_cons_self
  have hPageMod := (hForest.free_frame page hMem).2.1
  have hSourceMod := hForest.root_mod source hSource
  have hFresh :
      ∀ root ∈ roots, ∀ v level, level < 4 →
        tableAt s.tables root v level ≠ some page :=
    fun root hRoot v level hLevel hTable =>
      hForest.not_free root v level page hRoot hLevel hTable
        hMem
  have hNe : source ≠ page := by
    rintro rfl
    exact hFresh source hSource 0 0 (by omega) rfl
  have hSame :
      ∀ root ∈ roots, SameTree root s.tables s'.tables := by
    intro root hRoot v k table hk hTable
    refine loadEntry_copyKernelHalf_old ?_
      (tableAt_mod (hForest.root_mod root hRoot) hTable)
      hPageMod (levelIndex_lt v k)
    rintro rfl
    exact hFresh root hRoot v k hk hTable
  have hEntry :
      ∀ v,
        loadEntry s'.tables (page + 8 * levelIndex v 0) =
          if levelIndex v 0 < 256 then 0
          else
            loadEntry s.tables
              (source + 8 * levelIndex v 0) :=
    fun v =>
      loadEntry_copyKernelHalf_new hNe hSourceMod hPageMod
        (levelIndex_lt v 0)
  have hOld :
      ∀ root ∈ roots, ∀ v level, level < 4 →
        tableAt s'.tables root v level =
          tableAt s.tables root v level :=
    fun root hRoot v level hLevel =>
      (hSame root hRoot).tableAt_eq v (by omega)
  -- Below its entries the new root has the active tables.
  have hNew :
      ∀ v level table, 0 < level → level < 4 →
        tableAt s'.tables page v level = some table →
          Shared v ∧
            tableAt s.tables source v level =
              some table := by
    intro v level table hPos hLevel hTable
    have hShared : Shared v := by
      by_contra hUser
      rcases tableAt_isSome_of_le hTable
          (show 1 ≤ level by omega) with ⟨above, hOne⟩
      rw [tableAt_succ] at hOne
      unfold Shared at hUser
      simp only [tableAt, Option.bind_some, hEntry,
        if_pos (Nat.lt_of_not_le hUser)] at hOne
      rw [if_neg (fun h => h.1 rfl)] at hOne
      cases hOne
    refine ⟨hShared, ?_⟩
    have hTop :
        loadEntry s'.tables (page + 8 * levelIndex v 0) =
          loadEntry s'.tables
            (source + 8 * levelIndex v 0) := by
      unfold Shared at hShared
      rw [hEntry, if_neg (by omega)]
      exact (hSame source hSource v 0 source (by omega)
        rfl).symm
    rw [← hOld source hSource v level hLevel,
      ← tableAt_of_top hTop hPos, hTable]
  -- A table is the new root, or a table of an old root.
  have hFound :
      ∀ root v level table, root ∈ page :: roots → level < 4 →
        tableAt s'.tables root v level = some table →
          (root = page ∧ level = 0 ∧ table = page) ∨
            ∃ old ∈ roots,
              tableAt s.tables old v level = some table ∧
              (old = root ∨
                (root = page ∧ 0 < level ∧ Shared v)) := by
    intro root v level table hRoot hLevel hTable
    rcases List.mem_cons.mp hRoot with rfl | hRoot
    · by_cases hPos : 0 < level
      · rcases hNew v level table hPos hLevel hTable with
          ⟨hShared, hOldTable⟩
        exact .inr ⟨source, hSource, hOldTable,
          .inr ⟨rfl, hPos, hShared⟩⟩
      · have hZero : level = 0 := by omega
        subst hZero
        cases hTable
        exact .inl ⟨rfl, rfl, rfl⟩
    · rw [hOld root hRoot v level hLevel] at hTable
      exact .inr ⟨root, hRoot, hTable, .inl rfl⟩
  have hRest : rest.Sublist s.free := by
    rw [hFree]
    exact List.sublist_cons_self page rest
  have hNodup := hForest.free_nodup
  rw [hFree, List.nodup_cons] at hNodup
  refine ⟨?_, ?_, ?_, ?_⟩
  · refine
      { root_mod := ?_
        distinct := ?_
        shared := ?_
        not_free := ?_
        free_nodup := hRest.nodup hForest.free_nodup
        free_frame := fun other hOther =>
          hForest.free_frame other (hRest.subset hOther) }
    · intro root hRoot
      rcases List.mem_cons.mp hRoot with rfl | hRoot
      · exact hPageMod
      · exact hForest.root_mod root hRoot
    · intro root root' left right level level' table hRoot
        hRoot' hLevel hLevel' hLeft hRight
      rcases hFound root left level table hRoot hLevel hLeft
        with ⟨rfl, rfl, rfl⟩ | ⟨old, hOldRoot, hTable, hVia⟩
      · rcases hFound root' right level' table hRoot' hLevel'
            hRight with
          ⟨rfl, rfl, -⟩ | ⟨old', hOldRoot', hTable', -⟩
        · exact ⟨rfl,
            fun k hk => absurd hk (Nat.not_lt_zero k),
            .inl rfl⟩
        · exact absurd hTable'
            (hFresh old' hOldRoot' right level' hLevel')
      · rcases hFound root' right level' table hRoot' hLevel'
            hRight with
          ⟨-, -, rfl⟩ | ⟨old', hOldRoot', hTable', hVia'⟩
        · exact absurd hTable
            (hFresh old hOldRoot left level hLevel)
        · rcases hForest.distinct old old' left right level
              level' table hOldRoot hOldRoot' hLevel hLevel'
              hTable hTable' with ⟨rfl, hPath, hSees⟩
          refine ⟨rfl, hPath, ?_⟩
          have hShare :
              0 < level → Shared right → Shared left := by
            intro hPos hShared
            unfold Shared at hShared ⊢
            rw [hPath 0 hPos]
            exact hShared
          rcases hVia with rfl | ⟨rfl, hPos, hShared⟩
          · rcases hVia' with rfl | ⟨rfl, hPos, hShared⟩
            · exact hSees
            · exact .inr ⟨hPos, hShare hPos hShared⟩
          · exact .inr ⟨hPos, hShared⟩
    · intro root root' v hRoot hRoot' hShared
      have hTop :
          ∀ other ∈ page :: roots,
            loadEntry s'.tables (other + 8 * levelIndex v 0) =
              loadEntry s.tables
                (source + 8 * levelIndex v 0) := by
        intro other hOther
        rcases List.mem_cons.mp hOther with rfl | hOther
        · unfold Shared at hShared
          rw [hEntry, if_neg (by omega)]
        · rw [hSame other hOther v 0 other (by omega) rfl]
          exact hForest.shared other source v hOther hSource
            hShared
      rw [hTop root hRoot, hTop root' hRoot']
    · intro root v level table hRoot hLevel hTable hIn
      rcases hFound root v level table hRoot hLevel hTable with
        ⟨-, -, rfl⟩ | ⟨old, hOldRoot, hOldTable, -⟩
      · exact hNodup.1 hIn
      · exact hForest.not_free old v level table hOldRoot
          hLevel hOldTable (hRest.subset hIn)
  · intro root hRoot v table hTable
    rw [hOld root hRoot v 1 (by omega), hTable]
  · intro root hRoot v level table hLevel hTable
    rw [hOld root hRoot v level hLevel] at hTable
    exact .inl hTable
  · exact fun root hRoot v => (hSame root hRoot).leafOf_eq v

end Vmm

end Whirliscope

------------------------------------------------------------
-- Block Operations Leave the Spaces Alone
------------------------------------------------------------

namespace Whirliscope

namespace KernelHeap

open ByteMemory FaultProgram

variable {σ : Type}

/-
  An invariant that does not depend on the bytes of the heap,
  the last block or the count of allocated bytes.
-/
structure Light
    (invariant : Heap σ → Prop) : Prop where
  memory :
    ∀ heap memory, invariant heap →
      invariant (heap.withMemory memory)
  lastBlock :
    ∀ heap block, invariant heap →
      invariant { heap with lastBlock := block }
  allocated :
    ∀ heap count, invariant heap →
      invariant { heap with allocatedBytes := count }

namespace Light

variable {invariant : Heap σ → Prop}

theorem preserves_loadField
    (field : Field)
    (block : Nat) :
    Keeps invariant (loadField field block) := by
  unfold loadField
  refine (Preserves.of_get _).bind fun heap => ?_
  exact Preserves.ite (Preserves.of_pure _ _)
    (Preserves.of_throw _ trivial)

theorem preserves_storeField
    (hLight : Light invariant)
    (field : Field)
    (block value : Nat) :
    Keeps invariant (storeField field block value) := by
  intro heap hHeap
  unfold storeField
  rw [ensures_bind_iff, ensures_get_iff, ensures_ite_iff]
  constructor
  · intro _
    rw [ensures_set_iff]
    exact hLight.memory heap _ hHeap
  · intro _
    exact (ensures_throw_iff _ _ _ _).mpr trivial

theorem preserves_loadFree
    (block : Nat) :
    Keeps invariant (loadFree block) :=
  (preserves_loadField .free block).bind
    fun _ => Preserves.of_pure _ _

theorem preserves_storeFree
    (hLight : Light invariant)
    (block : Nat)
    (value : Bool) :
    Keeps invariant (storeFree block value) :=
  hLight.preserves_storeField .free block value.toNat

theorem preserves_setLastBlock
    (hLight : Light invariant)
    (block : Nat) :
    Keeps invariant (setLastBlock block) :=
  Preserves.of_modify fun heap hHeap =>
    hLight.lastBlock heap block hHeap

theorem preserves_assert
    (condition : Bool) :
    Keeps invariant (assert condition) :=
  Preserves.ite (Preserves.of_pure _ _)
    (Preserves.of_throw _ trivial)

theorem preserves_linkNextBack
    (hLight : Light invariant)
    (block : Nat) :
    Keeps invariant (linkNextBack block) := by
  unfold linkNextBack
  refine (preserves_loadField .next block).bind fun _ => ?_
  refine Preserves.ite ?_ (hLight.preserves_setLastBlock block)
  exact (preserves_loadField .next block).bind fun next =>
    hLight.preserves_storeField .prev next block

theorem preserves_splitBlock
    (hLight : Light invariant)
    (block size : Nat) :
    Keeps invariant (splitBlock block size) := by
  unfold splitBlock
  refine (preserves_loadField .size block).bind fun _ => ?_
  refine Preserves.ite (Preserves.of_pure _ _) ?_
  refine (hLight.preserves_storeField _ _ _).bind fun _ => ?_
  refine (hLight.preserves_storeFree _ _).bind fun _ => ?_
  refine (preserves_loadField .size block).bind fun _ => ?_
  refine (hLight.preserves_storeField _ _ _).bind fun _ => ?_
  refine (hLight.preserves_storeField _ _ _).bind fun _ => ?_
  refine (preserves_loadField .next block).bind fun _ => ?_
  refine (hLight.preserves_storeField _ _ _).bind fun _ => ?_
  refine (hLight.preserves_linkNextBack _).bind fun _ => ?_
  refine (hLight.preserves_storeField _ _ _).bind fun _ => ?_
  exact hLight.preserves_storeField _ _ _

theorem preserves_coalesceWithNext
    (hLight : Light invariant)
    (block : Nat) :
    Keeps invariant (coalesceWithNext block) := by
  unfold coalesceWithNext
  refine (preserves_loadField .next block).bind fun next => ?_
  refine Preserves.ite (Preserves.of_pure _ _) ?_
  refine (preserves_loadFree next).bind fun _ => ?_
  refine Preserves.ite (Preserves.of_pure _ _) ?_
  refine (preserves_loadField .size block).bind fun _ => ?_
  refine (preserves_loadField .size next).bind fun _ => ?_
  refine (hLight.preserves_storeField _ _ _).bind fun _ => ?_
  refine (preserves_loadField .next next).bind fun _ => ?_
  refine (hLight.preserves_storeField _ _ _).bind fun _ => ?_
  exact hLight.preserves_linkNextBack block

theorem preserves_coalesceNext
    (hLight : Light invariant)
    (block : Nat) :
    Keeps invariant (coalesceNext block) := by
  unfold coalesceNext
  refine (preserves_loadField .next block).bind fun _ => ?_
  refine Preserves.ite ?_ (Preserves.of_pure _ _)
  refine (preserves_loadField .next block).bind fun next => ?_
  refine (preserves_loadFree next).bind fun _ => ?_
  refine Preserves.ite ?_ (Preserves.of_pure _ _)
  refine (preserves_loadField .next block).bind fun next => ?_
  exact hLight.preserves_coalesceWithNext next

theorem preserves_coalescePrev
    (hLight : Light invariant)
    (block : Nat) :
    Keeps invariant (coalescePrev block) := by
  unfold coalescePrev
  refine (preserves_loadField .prev block).bind fun _ => ?_
  refine Preserves.ite ?_ (Preserves.of_pure _ _)
  refine (preserves_loadField .prev block).bind fun prev => ?_
  refine (preserves_loadFree prev).bind fun _ => ?_
  refine Preserves.ite ?_ (Preserves.of_pure _ _)
  refine (preserves_loadField .prev block).bind fun prev => ?_
  exact hLight.preserves_coalesceWithNext prev

/- `append_block` may make the first block. -/
theorem preserves_appendBlock
    (hLight : Light invariant)
    {block : Nat}
    (hFirst :
      ∀ heap, invariant heap →
        invariant { heap with firstBlock := block }) :
    Keeps invariant (appendBlock block) := by
  have hLast := hLight.preserves_setLastBlock block
  have hSet : Keeps invariant (setFirstBlock block) :=
    Preserves.of_modify hFirst
  unfold appendBlock
  refine (Preserves.of_get _).bind fun _ => ?_
  refine (hLight.preserves_storeField _ _ _).bind fun _ => ?_
  refine (hLight.preserves_storeField _ _ _).bind fun _ => ?_
  refine (Preserves.of_get _).bind fun _ => ?_
  refine Preserves.ite ?_ (hSet.bind fun _ => hLast)
  refine (Preserves.of_get _).bind fun _ => ?_
  exact (hLight.preserves_storeField _ _ _).bind fun _ => hLast

theorem preserves_addAllocated
    (hLight : Light invariant)
    (change : Nat → Nat) :
    Keeps invariant
      (modify fun heap =>
        { heap with
          allocatedBytes := change heap.allocatedBytes } :
        HeapM σ Unit) :=
  Preserves.of_modify fun heap hHeap =>
    hLight.allocated heap _ hHeap

theorem preserves_takeBlock
    (hLight : Light invariant)
    (block size : Nat) :
    Keeps invariant (takeBlock block size) := by
  unfold takeBlock
  refine (hLight.preserves_splitBlock block size).bind
    fun _ => ?_
  refine (hLight.preserves_storeFree block false).bind
    fun _ => ?_
  refine (preserves_loadField .size block).bind
    fun blockSize => ?_
  refine (hLight.preserves_addAllocated
    fun count => wrap 64 (count + blockSize)).bind fun _ => ?_
  exact Preserves.of_pure _ _

theorem preserves_findFreeBlock
    (size : Nat) :
    Keeps invariant (findFreeBlock size) := by
  unfold findFreeBlock
  refine (Preserves.of_get _).bind fun heap => ?_
  refine Preserves.loop (Preserves.of_throw _ trivial)
    (fun block => ?_) _ _
  unfold findFreeVisit
  refine Preserves.ite (Preserves.of_pure _ _) ?_
  refine (preserves_loadFree block).bind fun _ => ?_
  refine Preserves.ite ?_ ?_
  · refine (preserves_loadField .size block).bind fun _ => ?_
    refine Preserves.ite (Preserves.of_pure _ _) ?_
    exact (preserves_loadField .next block).bind
      fun _ => Preserves.of_pure _ _
  · exact (preserves_loadField .next block).bind
      fun _ => Preserves.of_pure _ _

theorem preserves_clearRange
    (hLight : Light invariant)
    (address count : Nat) :
    Keeps invariant (clearRange address count) := by
  intro heap hHeap
  unfold clearRange
  rw [ensures_bind_iff, ensures_get_iff, ensures_ite_iff]
  constructor
  · intro _
    rw [ensures_set_iff]
    exact hLight.memory heap _ hHeap
  · intro _
    exact (ensures_throw_iff _ _ _ _).mpr trivial

theorem preserves_copyRange
    (hLight : Light invariant)
    (dest src count : Nat) :
    Keeps invariant (copyRange dest src count) := by
  intro heap hHeap
  unfold copyRange
  rw [ensures_bind_iff, ensures_get_iff, ensures_ite_iff]
  constructor
  · intro _
    rw [ensures_set_iff]
    exact hLight.memory heap _ hHeap
  · intro _
    exact (ensures_throw_iff _ _ _ _).mpr trivial

theorem preserves_kfree
    (hLight : Light invariant)
    (ptr : Nat) :
    Keeps invariant (kfree ptr) := by
  unfold kfree
  refine Preserves.ite (Preserves.of_pure _ _) ?_
  refine (preserves_loadField .magic _).bind fun _ => ?_
  refine (preserves_assert _).bind fun _ => ?_
  refine (preserves_loadFree _).bind fun _ => ?_
  refine (preserves_assert _).bind fun _ => ?_
  refine (hLight.preserves_storeFree _ _).bind fun _ => ?_
  refine (preserves_loadField .size _).bind
    fun blockSize => ?_
  refine (hLight.preserves_addAllocated
    fun count => wrapSub 64 count blockSize).bind fun _ => ?_
  refine (hLight.preserves_coalesceWithNext _).bind
    fun _ => ?_
  exact hLight.preserves_coalescePrev _

theorem preserves_shrinkBlock
    (hLight : Light invariant)
    (block size : Nat) :
    Keeps invariant (shrinkBlock block size) := by
  unfold shrinkBlock
  refine (preserves_loadField .size block).bind
    fun oldSize => ?_
  refine (hLight.preserves_splitBlock block size).bind
    fun _ => ?_
  refine (hLight.preserves_coalesceNext block).bind
    fun _ => ?_
  refine (preserves_loadField .size block).bind
    fun blockSize => ?_
  exact hLight.preserves_addAllocated
    fun count =>
      wrapSub 64 count (wrapSub 64 oldSize blockSize)

/- The last steps of `expand_heap`, behind the new end. -/
theorem ensures_addChunk
    (hLight : Light invariant)
    {blockAddress bytes : Nat}
    {heap : Heap σ}
    (hFirst :
      ∀ heap, invariant heap →
        invariant { heap with firstBlock := blockAddress })
    (hGrown :
      invariant
        { heap with
          heapEnd := wrap 64 (heap.heapEnd + bytes)
          mappedBytes := wrap 64 (heap.mappedBytes + bytes) }) :
    Ensures (fun _ => True) (addChunk blockAddress bytes) heap
      fun _ final => invariant final := by
  have hRest :
      Keeps invariant
        (do
          writeChunk blockAddress bytes
          coalescePrev blockAddress) := by
    unfold writeChunk
    refine Preserves.bind ?_ fun _ =>
      hLight.preserves_coalescePrev blockAddress
    refine (hLight.preserves_storeField _ _ _).bind
      fun _ => ?_
    refine (hLight.preserves_storeFree _ _).bind fun _ => ?_
    refine (hLight.preserves_storeField _ _ _).bind
      fun _ => ?_
    exact hLight.preserves_appendBlock hFirst
  unfold addChunk
  rw [ensures_bind_iff, ensures_modify_iff]
  exact hRest _ hGrown

end Light

end KernelHeap

end Whirliscope

------------------------------------------------------------
-- Invariants of the Machine
------------------------------------------------------------

namespace Whirliscope

namespace KernelHeap

open ByteMemory FaultProgram

variable {σ : Type}

/- What the page functions of a machine keep. -/
structure PageSource.Closed
    (source : PageSource σ)
    (invariant : σ → Prop) : Prop where
  alloc :
    ∀ machine, invariant machine →
      invariant (source.pmmAllocPage machine).2
  free :
    ∀ page machine, invariant machine →
      invariant (source.pmmFreePage page machine)
  map :
    ∀ vaddr physical flags machine, invariant machine →
      invariant
        (source.vmmMapPage vaddr physical flags machine).2
  unmap :
    ∀ vaddr machine, invariant machine →
      invariant (source.vmmUnmapPage vaddr machine)

/- A fact about the machine below a heap. -/
def OfMachine
    (invariant : σ → Prop)
    (heap : Heap σ) : Prop :=
  invariant heap.machine

theorem ofMachine_light
    (invariant : σ → Prop) :
    Light (OfMachine invariant) where
  memory := fun _ _ h => h
  lastBlock := fun _ _ h => h
  allocated := fun _ _ h => h

namespace PageSource.Closed

variable {source : PageSource σ} {invariant : σ → Prop}

theorem keeps_rollback
    (hClosed : source.Closed invariant)
    (start bytes : Nat) :
    Keeps (OfMachine invariant)
      (rollbackHeapMapping source start bytes) := by
  unfold rollbackHeapMapping
  refine Preserves.loop (Preserves.of_throw _ trivial)
    (fun offset => ?_) _ _
  unfold rollbackVisit
  refine Preserves.ite ?_ (Preserves.of_pure _ _)
  refine Preserves.bind (Preserves.of_modify ?_)
    fun _ => Preserves.of_pure _ _
  intro heap hHeap
  split
  · exact hHeap
  · exact hClosed.free _ _ (hClosed.unmap _ _ hHeap)

theorem keeps_mapVisit
    (hClosed : source.Closed invariant)
    (blockAddress bytes offset : Nat) :
    Keeps (OfMachine invariant)
      (mapVisit source blockAddress bytes offset) := by
  unfold mapVisit
  have hRollback :=
    hClosed.keeps_rollback blockAddress offset
  have hAlloc :
      Keeps (OfMachine invariant)
        (KernelHeap.pmmAllocPage source) := by
    intro heap hHeap
    simp only [KernelHeap.pmmAllocPage, ensures_bind_iff,
      ensures_get_iff, ensures_set_iff, ensures_pure_iff]
    exact hClosed.alloc _ hHeap
  have hMap :
      ∀ vaddr physical flags,
        Keeps (OfMachine invariant)
          (KernelHeap.vmmMapPage source vaddr physical
            flags) := by
    intro vaddr physical flags heap hHeap
    have hMapped :=
      hClosed.map vaddr physical flags heap.machine hHeap
    unfold KernelHeap.vmmMapPage
    rw [ensures_bind_iff, ensures_get_iff, ensures_ite_iff]
    constructor
    · intro _
      rw [ensures_bind_iff, ensures_set_iff, ensures_pure_iff]
      exact hMapped
    · intro _
      rw [ensures_bind_iff, ensures_set_iff, ensures_pure_iff]
      exact hMapped
  refine Preserves.ite ?_ (Preserves.of_pure _ _)
  refine hAlloc.bind fun physical => ?_
  refine Preserves.ite
    (hRollback.bind fun _ => Preserves.of_pure _ _) ?_
  refine (Preserves.of_get _).bind fun heap => ?_
  refine (hMap _ _ _).bind fun mapped => ?_
  refine Preserves.ite ?_ (Preserves.of_pure _ _)
  refine Preserves.bind (Preserves.of_modify ?_) fun _ =>
    hRollback.bind fun _ => Preserves.of_pure _ _
  exact fun heap hHeap => hClosed.free _ _ hHeap

theorem keeps_addChunk
    (blockAddress bytes : Nat) :
    Keeps (OfMachine invariant)
      (addChunk blockAddress bytes : HeapM σ Unit) := by
  intro heap hHeap
  exact (ofMachine_light invariant).ensures_addChunk
    (fun _ hFirst => hFirst) hHeap

theorem keeps_expandHeap
    (hClosed : source.Closed invariant)
    (size : Nat) :
    Keeps (OfMachine invariant) (expandHeap source size) := by
  unfold expandHeap
  refine (Preserves.of_get _).bind fun heap => ?_
  refine Preserves.ite (Preserves.of_pure _ _) ?_
  refine Preserves.bind ?_ fun mapped => ?_
  · exact Preserves.loop (Preserves.of_throw _ trivial)
      (hClosed.keeps_mapVisit _ _) _ _
  · refine Preserves.ite (Preserves.of_pure _ _) ?_
    exact (keeps_addChunk _ _).bind fun _ =>
      Preserves.of_pure _ _

/- `kmalloc` changes the machine by its page functions only. -/
theorem keeps_kmalloc
    (hClosed : source.Closed invariant)
    (size : Nat) :
    Keeps (OfMachine invariant) (kmalloc source size) := by
  have hLight := ofMachine_light invariant
  unfold kmalloc
  refine (Preserves.of_get _).bind fun heap => ?_
  refine Preserves.ite (Preserves.of_pure _ _) ?_
  refine (Light.preserves_findFreeBlock _).bind fun found => ?_
  refine Preserves.ite (hLight.preserves_takeBlock _ _) ?_
  refine (hClosed.keeps_expandHeap _).bind fun grown => ?_
  refine Preserves.ite (Preserves.of_pure _ _) ?_
  refine (Light.preserves_findFreeBlock _).bind fun block => ?_
  exact Preserves.ite (Preserves.of_pure _ _)
    (hLight.preserves_takeBlock _ _)

end PageSource.Closed

end KernelHeap

end Whirliscope
