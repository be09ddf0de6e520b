import Whirliscope.Memory.PageEntries

/-
  Mapping consecutive pages, and undoing it.

  While pages are mapped one after the other, every other
  translation stays, and a frame that leaves the free list is
  mapped or holds a table. Unmapping the pages again restores
  the translations and gives their frames back.

  Key definitions include:
    * `InPages`
    * `Progress`
-/

------------------------------------------------------------
-- Consecutive Pages
------------------------------------------------------------

namespace Whirliscope

namespace Vmm

open ByteMemory

/- The addresses of some pages from `start` on. -/
def InPages
    (virtualAddress start count : Nat) : Prop :=
  ∃ k, k < count ∧
    InPage virtualAddress (start + 4096 * k) 12

theorem inPages_zero
    (virtualAddress start : Nat) :
    ¬ InPages virtualAddress start 0 := by
  rintro ⟨k, hk, -⟩
  exact Nat.not_lt_zero k hk

/- One more page behind the others. -/
theorem inPages_succ
    (virtualAddress start count : Nat) :
    InPages virtualAddress start (count + 1) ↔
      InPages virtualAddress start count ∨
        InPage virtualAddress (start + 4096 * count) 12 := by
  constructor
  · rintro ⟨k, hk, hIn⟩
    rcases Nat.lt_or_eq_of_le (Nat.le_of_lt_succ hk) with
      hLess | rfl
    · exact .inl ⟨k, hLess, hIn⟩
    · exact .inr hIn
  · rintro (⟨k, hk, hIn⟩ | hIn)
    · exact ⟨k, Nat.lt_succ_of_lt hk, hIn⟩
    · exact ⟨count, Nat.lt_succ_self count, hIn⟩

/- The first page and the others. -/
theorem inPages_cons
    (virtualAddress start count : Nat) :
    InPages virtualAddress start (count + 1) ↔
      InPage virtualAddress start 12 ∨
        InPages virtualAddress (start + 4096) count := by
  have hNext :
      ∀ k, start + 4096 + 4096 * k = start + 4096 * (k + 1) := by
    intro k
    omega
  constructor
  · rintro ⟨k, hk, hIn⟩
    cases k with
    | zero => exact .inl hIn
    | succ k =>
        refine .inr ⟨k, Nat.lt_of_succ_lt_succ hk, ?_⟩
        rw [hNext]
        exact hIn
  · rintro (hIn | ⟨k, hk, hIn⟩)
    · exact ⟨0, Nat.succ_pos count, hIn⟩
    · refine ⟨k + 1, Nat.succ_lt_succ hk, ?_⟩
      rw [← hNext]
      exact hIn

/- Addresses of one page are mapped together. -/
theorem leafOf_none_inPage
    {tables : Bytes}
    {root virtualAddress target : Nat}
    (hIn : InPage virtualAddress target 12)
    (hNone : leafOf tables root target = none) :
    leafOf tables root virtualAddress = none := by
  rw [← leafOf_low48] at hNone ⊢
  have hSame :
      walkToExistingMapping tables root (low48 virtualAddress) =
        walkToExistingMapping tables root (low48 target) :=
    walkToExistingMapping_page tables root hIn
  unfold leafOf at hNone ⊢
  rw [hSame]
  rw [Option.map_eq_none_iff] at hNone ⊢
  exact hNone

/- A page in the shared half is in it as a whole. -/
theorem shared_of_inPage
    {virtualAddress target : Nat}
    (hIn : InPage virtualAddress target 12)
    (hShared : Shared target) :
    Shared virtualAddress := by
  have hPath :=
    (@samePath_iff 3 (by decide) virtualAddress target).mpr hIn
  unfold Shared
  rw [hPath 0 (by decide)]
  exact hShared

/- Only an address without a mapping can be mapped. -/
theorem mapAtLevelInRoot_fresh
    {roots : List Nat}
    {root target physical flags : Nat}
    {s : Paging}
    (hRoot : root ∈ roots)
    (hForest : PageForest roots s)
    (hLinkable : Linkable roots root target s)
    (hOk :
      (mapAtLevelInRoot root target physical pageSize 12 flags
        s).1 = true) :
    leafOf s.tables root target = none := by
  have hTop : tableAt s.tables root target 0 = some root := rfl
  have hWalk :
      WalkOutcome roots root target 12 s
        (walkToLevelCreate root target flags 12 s).1
        (walkToLevelCreate root target flags 12 s).2 :=
    walkLevelsCreate_outcome hRoot rfl hForest hTop
      ⟨3, by decide, by decide, rfl⟩ (.inr hLinkable)
  rw [← hWalk.leaves root hRoot target]
  unfold mapAtLevelInRoot at hOk
  split at hOk
  · cases hOk
  split at hOk
  · cases hOk
  rename_i mapping middle hResult
  rw [hResult] at hWalk ⊢
  rcases hWalk.arrives mapping rfl with
    ⟨level, table, hLevel, hShift, hTable, rfl⟩
  have hLast : level = 3 := by
    unfold levelShift at hShift
    omega
  subst hLast
  split at hOk
  · cases hOk
  rename_i hAbsent
  rw [leafOf_of_ends
    (⟨by decide, hTable, .inl rfl⟩ :
      Ends middle.tables root target 3 table)]
  dsimp only
  rw [if_pos]
  by_contra hPresent
  exact hAbsent (.inr hPresent)

end Vmm

end Whirliscope

------------------------------------------------------------
-- Progress
------------------------------------------------------------

namespace Whirliscope

namespace Vmm

open ByteMemory

/-
  Frames are mapped one after the other. The other
  translations are as at first, the pages had none, and the
  frames that left the free list are these or hold tables.
-/
structure Progress
    (roots : List Nat)
    (start : Nat)
    (frames : List Nat)
    (s s' : Paging) : Prop where
  kept :
    ∀ root ∈ roots, ∀ v, ¬ InPages v start frames.length →
      leafOf s'.tables root v = leafOf s.tables root v
  fresh :
    ∀ root ∈ roots, ∀ v, InPages v start frames.length →
      leafOf s.tables root v = none
  accounts :
    ∀ page ∈ s.free,
      page ∈ s'.free ∨ page ∈ frames ∨
        IsTableOf roots s' page

theorem Progress.refl
    (roots : List Nat)
    (start : Nat)
    (s : Paging) :
    Progress roots start [] s s where
  kept := fun _ _ _ _ => rfl
  fresh := fun _ _ v hIn => absurd hIn (inPages_zero v start)
  accounts := fun _ hFree => .inl hFree

/- Without pages, the translations are as at first. -/
theorem Progress.undone
    {roots : List Nat}
    {start : Nat}
    {s s' : Paging}
    (hProgress : Progress roots start [] s s') :
    SameLeaves roots s s' ∧ UsesFree roots s s' := by
  refine ⟨fun root hRoot v =>
    hProgress.kept root hRoot v (inPages_zero v start), ?_⟩
  intro page hFree
  rcases hProgress.accounts page hFree with
    hBack | hNever | hTable
  · exact .inl hBack
  · cases hNever
  · exact .inr hTable

/- A frame goes back to the front of the free list. -/
theorem pmmFreePage_of_frame
    {page : Nat}
    (hFrame : IsFrame page)
    (s : Paging) :
    pmmFreePage page s = { s with free := page :: s.free } := by
  unfold pmmFreePage
  rw [if_neg]
  rintro (hZero | hUnaligned)
  · exact hFrame.1 hZero
  · exact hUnaligned hFrame.2.1

section Steps

variable {roots frames rest : List Nat}
variable {root start page : Nat}
variable {s s' : Paging}

/- The next page is mapped, or its frame goes back. -/
theorem Progress.map
    {target flags : Nat}
    (hProgress : Progress roots start frames s s')
    (hTarget : target = start + 4096 * frames.length)
    (hFree : s'.free = page :: rest)
    (hRoot : root ∈ roots)
    (hForest : PageForest roots { s' with free := rest })
    (hFrame : IsFrame page)
    (hFlags : flags < 2 ^ 64)
    (hShared : Shared target)
    (hLinkable :
      Linkable roots root target { s' with free := rest }) :
    let call :=
      mapAtLevelInRoot root target page pageSize 12 flags
        { s' with free := rest }
    (call.1 = true →
      Progress roots start (frames ++ [page]) s call.2) ∧
    (call.1 = false →
      Progress roots start frames s
        (pmmFreePage page call.2)) := by
  intro call
  have hWord : page < 2 ^ 64 := by
    have hSmall := hFrame.2.2
    omega
  have hOutcome :
      MapOutcome roots root target page flags 12
        { s' with free := rest } call.1 call.2 :=
    mapAtLevelInRoot_outcome hForest hRoot (.inr (.inr rfl))
      ⟨hWord, hFlags⟩ (.inl rfl) hLinkable
  have hTables :
      KeepsTables roots { s' with free := rest } call.2 ∧
        UsesFree roots { s' with free := rest } call.2 :=
    mapAtLevelInRoot_tables hRoot hForest hLinkable
  have hFresh :
      call.1 = true → leafOf s'.tables root target = none :=
    mapAtLevelInRoot_fresh hRoot hForest hLinkable
  -- The frames of the first state after the call.
  have hAccounts :
      ∀ frame ∈ s.free,
        frame ∈ call.2.free ∨ frame ∈ frames ++ [page] ∨
          IsTableOf roots call.2 frame := by
    intro frame hMem
    rw [List.mem_append, List.mem_singleton]
    rcases hProgress.accounts frame hMem with
      hStill | hMapped | hTable
    · rw [hFree] at hStill
      rcases List.mem_cons.mp hStill with hPage | hRest
      · exact .inr (.inl (.inr hPage))
      · rcases hTables.2 frame hRest with hBack | hTable
        · exact .inl hBack
        · exact .inr (.inr hTable)
    · exact .inr (.inl (.inl hMapped))
    · exact .inr (.inr (hTables.1.isTableOf hTable))
  have hPages :
      ∀ v, InPages v start (frames ++ [page]).length ↔
        InPages v start frames.length ∨
          InPage v target 12 := by
    intro v
    rw [List.length_append, List.length_singleton,
      inPages_succ, hTarget]
  constructor
  · intro hOk
    refine
      { kept := ?_
        fresh := ?_
        accounts := hAccounts }
    · intro other hOther v hOut
      rw [hPages, not_or] at hOut
      exact (hOutcome.kept hOk other hOther v
        (fun hIn => hOut.2 hIn.2)).trans
          (hProgress.kept other hOther v hOut.1)
    · intro other hOther v hIn
      by_cases hOld : InPages v start frames.length
      · exact hProgress.fresh other hOther v hOld
      · have hNew := ((hPages v).mp hIn).resolve_left hOld
        rw [← hProgress.kept other hOther v hOld]
        have hSame :
            leafOf s'.tables other v =
              leafOf s'.tables root v :=
          hForest.leafOf_shared hRoot hOther
            (shared_of_inPage hNew hShared)
        rw [hSame]
        exact leafOf_none_inPage hNew (hFresh hOk)
  · intro hRefused
    rw [pmmFreePage_of_frame hFrame]
    refine
      { kept := ?_
        fresh := hProgress.fresh
        accounts := ?_ }
    · intro other hOther v hOut
      exact (hOutcome.refused hRefused other hOther v).trans
        (hProgress.kept other hOther v hOut)
    · intro frame hMem
      rcases hAccounts frame hMem with hBack | hIn | hTable
      · exact .inl (List.mem_cons_of_mem page hBack)
      · rcases List.mem_append.mp hIn with hMapped | hPage
        · exact .inr (.inl hMapped)
        · rw [List.mem_singleton.mp hPage]
          exact .inl List.mem_cons_self
      · exact .inr (.inr hTable)

/- The first page is unmapped, and its frame goes back. -/
theorem Progress.unmap
    (hProgress : Progress roots start (page :: frames) s s')
    (hRoot : root ∈ roots)
    (hForest : PageForest roots s')
    (hFrame : IsFrame page)
    (hShared : Shared start)
    (hAligned : start % 4096 = 0)
    (hLeaf :
      leafOf s'.tables root start = some ⟨page, 12⟩) :
    Progress roots (start + 4096) frames s
      (pmmFreePage page (vmmUnmapPage root start s').2) := by
  rcases vmmUnmapPage_tables hRoot hForest hLeaf hAligned with
    ⟨hOk, hTables⟩
  have hOutcome :
      UnmapOutcome roots root start s'
        (vmmUnmapPage root start s').1
        (vmmUnmapPage root start s').2 :=
    vmmUnmapPage_outcome hForest hRoot
  rcases hOutcome.unmapped hOk with
    ⟨leaf, hSame, hGone, hKept⟩
  have hShift : leaf = ⟨page, 12⟩ :=
    Option.some.inj (hSame.symm.trans hLeaf)
  subst hShift
  have hPages :
      ∀ v, InPages v start (page :: frames).length ↔
        InPage v start 12 ∨
          InPages v (start + 4096) frames.length := by
    intro v
    rw [List.length_cons, inPages_cons]
  rw [pmmFreePage_of_frame hFrame]
  refine
    { kept := ?_
      fresh := ?_
      accounts := ?_ }
  · intro other hOther v hOut
    by_cases hIn : InPage v start 12
    · rw [hProgress.fresh other hOther v
        ((hPages v).mpr (.inl hIn))]
      exact hGone other hOther v (.inr hShared) hIn
    · refine (hKept other hOther v (fun h => hIn h.2)).trans
        (hProgress.kept other hOther v ?_)
      rw [hPages]
      exact not_or.mpr ⟨hIn, hOut⟩
  · intro other hOther v hIn
    exact hProgress.fresh other hOther v
      ((hPages v).mpr (.inr hIn))
  · intro frame hMem
    rcases hProgress.accounts frame hMem with
      hStill | hMapped | hTable
    · refine .inl (List.mem_cons_of_mem page ?_)
      rw [hOutcome.free]
      exact hStill
    · rcases List.mem_cons.mp hMapped with rfl | hRest
      · exact .inl List.mem_cons_self
      · exact .inr (.inl hRest)
    · exact .inr (.inr (hTables.isTableOf hTable))

end Steps

end Vmm

end Whirliscope
