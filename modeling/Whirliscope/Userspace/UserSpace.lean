import Whirliscope.Memory.UserPages
import Whirliscope.Userspace.ProcessTable

/-
  The memory of a program, page by page.

  A user space gives every mapped page its frame, its flags
  and its bytes. A machine holds a user space when its tables
  show the frames and its memory has the bytes; frames in use
  that no page shows are spare.

  Key definitions include:
    * `UserPage`, `UserSpace`
    * `Holds`

  Main theorems:
    * `Holds.view`, `Holds.poke`
    * `Holds.alloc`, `Holds.store`, `Holds.map`
-/

------------------------------------------------------------
-- User Spaces
------------------------------------------------------------

namespace Whirliscope

namespace Userspace

open ByteMemory Vmm

/- A mapped page. -/
structure UserPage where
  frame : Frame
  bytes : Bytes

/- The page with another byte at an offset. -/
def UserPage.poke
    (page : UserPage)
    (offset : Nat)
    (byte : UInt8) : UserPage :=
  { page with bytes := Function.update page.bytes offset byte }

/- The pages of a program, by their numbers. -/
abbrev UserSpace :=
  Nat → Option UserPage

def UserSpace.frames
    (space : UserSpace)
    (number : Nat) : Option Frame :=
  (space number).map UserPage.frame

/- No page shows the frame. -/
def UserSpace.Spare
    (space : UserSpace)
    (physical : Nat) : Prop :=
  ∀ number page, space number = some page →
    page.frame.physical ≠ physical

/- The space with a page at a number. -/
def UserSpace.put
    (space : UserSpace)
    (number : Nat)
    (page : UserPage) : UserSpace :=
  Function.update space number (some page)

theorem UserSpace.put_self
    (space : UserSpace)
    (number : Nat)
    (page : UserPage) :
    space.put number page number = some page :=
  Function.update_self _ _ _

theorem UserSpace.put_of_ne
    (space : UserSpace)
    {number other : Nat}
    (page : UserPage)
    (hNe : other ≠ number) :
    space.put number page other = space other :=
  Function.update_of_ne hNe _ _

theorem UserSpace.frames_put
    (space : UserSpace)
    (number : Nat)
    (page : UserPage) :
    (space.put number page).frames =
      Function.update space.frames number
        (some page.frame) := by
  funext other
  by_cases hOther : other = number
  · subst hOther
    rw [Function.update_self, UserSpace.frames,
      space.put_self]
    rfl
  · rw [Function.update_of_ne hOther, UserSpace.frames,
      space.put_of_ne page hOther]
    rfl

/- Other bytes in a page are shown by the same frame. -/
theorem UserSpace.frames_put_of_frame
    {space : UserSpace}
    {number : Nat}
    {page old : UserPage}
    (hOld : space number = some old)
    (hFrame : page.frame = old.frame) :
    (space.put number page).frames = space.frames := by
  rw [space.frames_put, Function.update_eq_self_iff,
    UserSpace.frames, hOld, hFrame]
  rfl

variable {δ : Type}

/- The tables and free frames of a machine. -/
abbrev pagingOf
    (machine : UserMachine δ) : Paging :=
  (spacesOf machine).paging

/-
  The machine holds the space below `root`. The pages have
  different frames, all of them among the frames in use.
-/
structure Holds
    (root : Nat)
    (space : UserSpace)
    (used : List Nat)
    (machine : UserMachine δ) : Prop where
  root_ne : root ≠ 0
  forest : PageForest [root] (pagingOf machine)
  shows : ShowsPages root (pagingOf machine) space.frames
  outstanding : Outstanding [root] (pagingOf machine) used
  owns :
    ∀ number page, space number = some page →
      page.frame.physical ∈ used ∧
        MapArguments page.frame.physical page.frame.flags
  distinct :
    ∀ number number' page page',
      space number = some page →
      space number' = some page' →
      page.frame.physical = page'.frame.physical →
        number = number'
  bytes :
    ∀ number page, space number = some page →
      ∀ i, i < 4096 →
        machine.memory (page.frame.physical + i) =
          page.bytes i

/- A spare frame in use, with its bytes. -/
structure Reserved
    (space : UserSpace)
    (used : List Nat)
    (physical : Nat)
    (bytes : Bytes)
    (machine : UserMachine δ) : Prop where
  mem : physical ∈ used
  spare : space.Spare physical
  bytes :
    ∀ i, i < 4096 → machine.memory (physical + i) = bytes i

/- The byte that a space shows at an address. -/
def userByte
    (machine : UserMachine δ)
    (root virtualAddress : Nat) : Option UInt8 :=
  (vmmVirtToPhys machine.tables root virtualAddress).map
    machine.memory

end Userspace

end Whirliscope

------------------------------------------------------------
-- Reading and Writing a Held Space
------------------------------------------------------------

namespace Whirliscope

namespace Userspace

open ByteMemory Vmm

section View

variable {δ : Type}
variable {root : Nat} {space : UserSpace} {used : List Nat}
variable {machine : UserMachine δ}

theorem Holds.isFrame
    (hHolds : Holds root space used machine)
    {number : Nat}
    {page : UserPage}
    (hPage : space number = some page) :
    IsFrame page.frame.physical :=
  hHolds.outstanding.frame _ (hHolds.owns number page hPage).1

/- Where the address of a mapped page is translated to. -/
theorem Holds.translate
    (hHolds : Holds root space used machine)
    {virtualAddress : Nat}
    {page : UserPage}
    (hHalf : UserHalf virtualAddress)
    (hPage : space (virtualAddress / 4096) = some page) :
    vmmVirtToPhys machine.tables root virtualAddress =
      some (page.frame.physical + virtualAddress % 4096) := by
  have hAccess :=
    hHolds.shows.access hHalf (congrArg _ hPage)
      (hHolds.isFrame hPage) (hHolds.owns _ _ hPage).2
  rw [vmmVirtToPhys_eq_leafOf]
  exact congrArg _ hAccess.1

theorem Holds.translate_none
    (hHolds : Holds root space used machine)
    {virtualAddress : Nat}
    (hHalf : UserHalf virtualAddress)
    (hPage : space (virtualAddress / 4096) = none) :
    vmmVirtToPhys machine.tables root virtualAddress =
      none := by
  rw [vmmVirtToPhys_eq_leafOf]
  exact congrArg _
    (hHolds.shows.unmapped _ hHalf (congrArg _ hPage))

/- An address is translated when its page is mapped. -/
theorem Holds.translate_eq_some_iff
    (hHolds : Holds root space used machine)
    {virtualAddress physical : Nat}
    (hHalf : UserHalf virtualAddress) :
    vmmVirtToPhys machine.tables root virtualAddress =
        some physical ↔
      ∃ page, space (virtualAddress / 4096) = some page ∧
        page.frame.physical + virtualAddress % 4096 =
          physical := by
  cases hPage : space (virtualAddress / 4096) with
  | none =>
      rw [hHolds.translate_none hHalf hPage]
      simp
  | some page =>
      rw [hHolds.translate hHalf hPage]
      simp

/- The bytes that a held space shows. -/
theorem Holds.userByte_eq
    (hHolds : Holds root space used machine)
    {virtualAddress : Nat}
    (hHalf : UserHalf virtualAddress) :
    userByte machine root virtualAddress =
      (space (virtualAddress / 4096)).map fun page =>
        page.bytes (virtualAddress % 4096) := by
  unfold userByte
  cases hPage : space (virtualAddress / 4096) with
  | none =>
      rw [hHolds.translate_none hHalf hPage]
      rfl
  | some page =>
      rw [hHolds.translate hHalf hPage, Option.map_some,
        Option.map_some]
      exact congrArg some
        (hHolds.bytes _ page hPage _ (Nat.mod_lt _ (by decide)))

/- Frames do not overlap. -/
theorem frame_apart
    {left right i j : Nat}
    (hLeft : left % 4096 = 0)
    (hRight : right % 4096 = 0)
    (hi : i < 4096)
    (hj : j < 4096)
    (hSame : left + i = right + j) :
    left = right ∧ i = j := by
  omega

/- Every page has a frame of its own. -/
theorem Holds.own_frame
    (hHolds : Holds root space used machine)
    {left right physical physical' : Nat}
    (hLeft : UserHalf left)
    (hRight : UserHalf right)
    (hLeftAt :
      vmmVirtToPhys machine.tables root left = some physical)
    (hRightAt :
      vmmVirtToPhys machine.tables root right =
        some physical')
    (hSame : physical / 4096 = physical' / 4096) :
    left / 4096 = right / 4096 := by
  rcases (hHolds.translate_eq_some_iff hLeft).mp hLeftAt with
    ⟨page, hPage, rfl⟩
  rcases (hHolds.translate_eq_some_iff hRight).mp hRightAt
    with ⟨page', hPage', rfl⟩
  have hMod := (hHolds.isFrame hPage).2.1
  have hMod' := (hHolds.isFrame hPage').2.1
  have hFrames :
      page.frame.physical = page'.frame.physical := by
    omega
  exact hHolds.distinct _ _ page page' hPage hPage' hFrames

/- The same tables, frames and mapped bytes. -/
theorem Holds.of_bytes
    (hHolds : Holds root space used machine)
    (other : UserMachine δ)
    (hTables : other.tables = machine.tables)
    (hFree : other.rest.free = machine.rest.free)
    (hBytes :
      ∀ number page, space number = some page →
        ∀ i, i < 4096 →
          other.memory (page.frame.physical + i) =
            machine.memory (page.frame.physical + i)) :
    Holds root space used other := by
  have hPaging : pagingOf other = pagingOf machine := by
    unfold pagingOf spacesOf
    rw [hTables, hFree]
  exact
    { root_ne := hHolds.root_ne
      forest := by rw [hPaging]; exact hHolds.forest
      shows := by rw [hPaging]; exact hHolds.shows
      outstanding := by rw [hPaging]; exact hHolds.outstanding
      owns := hHolds.owns
      distinct := hHolds.distinct
      bytes := fun number page hPage i hi =>
        (hBytes number page hPage i hi).trans
          (hHolds.bytes number page hPage i hi) }

/- A byte stored at a mapped address. -/
theorem Holds.poke
    (hHolds : Holds root space used machine)
    {virtualAddress : Nat}
    {page : UserPage}
    (hPage : space (virtualAddress / 4096) = some page)
    (byte : UInt8) :
    Holds root
      (space.put (virtualAddress / 4096)
        (page.poke (virtualAddress % 4096) byte))
      used
      { machine with
        memory :=
          Function.update machine.memory
            (page.frame.physical + virtualAddress % 4096)
            byte } := by
  let offset := virtualAddress % 4096
  let number := virtualAddress / 4096
  have hOffset : offset < 4096 := Nat.mod_lt _ (by decide)
  -- Every page of the new space is an old one up to bytes.
  have hOld :
      ∀ other new,
        space.put number (page.poke offset byte) other =
            some new →
          ∃ old, space other = some old ∧
            old.frame = new.frame := by
    intro other new hNew
    by_cases hOther : other = number
    · subst hOther
      rw [space.put_self] at hNew
      cases hNew
      exact ⟨page, hPage, rfl⟩
    · rw [space.put_of_ne _ hOther] at hNew
      exact ⟨new, hNew, rfl⟩
  refine
    { root_ne := hHolds.root_ne
      forest := hHolds.forest
      shows := ?_
      outstanding := hHolds.outstanding
      owns := ?_
      distinct := ?_
      bytes := ?_ }
  · have hFrames :
        (space.put number (page.poke offset byte)).frames =
          space.frames :=
      UserSpace.frames_put_of_frame hPage rfl
    exact hFrames ▸ hHolds.shows
  · intro other new hNew
    rcases hOld other new hNew with ⟨old, hSpace, hFrame⟩
    rw [← hFrame]
    exact hHolds.owns other old hSpace
  · intro other other' new new' hNew hNew' hSame
    rcases hOld other new hNew with ⟨old, hSpace, hFrame⟩
    rcases hOld other' new' hNew' with
      ⟨old', hSpace', hFrame'⟩
    rw [← hFrame, ← hFrame'] at hSame
    exact hHolds.distinct other other' old old' hSpace
      hSpace' hSame
  · intro other new hNew i hi
    change
      Function.update machine.memory
          (page.frame.physical + offset) byte
          (new.frame.physical + i) =
        new.bytes i
    by_cases hOther : other = number
    · subst hOther
      rw [space.put_self] at hNew
      cases hNew
      change _ = Function.update page.bytes offset byte i
      by_cases hi' : i = offset
      · subst hi'
        rw [Function.update_self]
        exact Function.update_self _ _ _
      · rw [Function.update_of_ne hi']
        have hNe :
            (page.poke offset byte).frame.physical + i ≠
              page.frame.physical + offset :=
          fun h => hi' (Nat.add_left_cancel h)
        rw [Function.update_of_ne hNe]
        exact hHolds.bytes _ page hPage i hi
    · rw [space.put_of_ne _ hOther] at hNew
      rw [Function.update_of_ne]
      · exact hHolds.bytes other new hNew i hi
      · intro hSame
        have hApart :=
          frame_apart (hHolds.isFrame hNew).2.1
            (hHolds.isFrame hPage).2.1 hi hOffset hSame
        exact hOther
          (hHolds.distinct _ _ new page hNew hPage hApart.1)

end View

end Userspace

end Whirliscope

------------------------------------------------------------
-- Adding Pages to a Held Space
------------------------------------------------------------

namespace Whirliscope

namespace Userspace

open ByteMemory Vmm

section Adding

variable {δ : Type}
variable {root : Nat} {space : UserSpace} {used : List Nat}
variable {machine : UserMachine δ}

/- What the allocator answers. -/
theorem pmmAllocPage_of_nil
    (hFree : machine.rest.free = []) :
    pageManager.pmmAllocPage machine =
      (0, withPaging machine (pagingOf machine)) := by
  change
    ((Vmm.pmmAllocPage (pagingOf machine)).1,
      withPaging machine
        (Vmm.pmmAllocPage (pagingOf machine)).2) = _
  have hNone : (pagingOf machine).free = [] := hFree
  unfold Vmm.pmmAllocPage
  rw [hNone]

theorem pmmAllocPage_of_cons
    {page : Nat}
    {rest : List Nat}
    (hFree : machine.rest.free = page :: rest) :
    pageManager.pmmAllocPage machine =
      (page,
        withPaging machine
          { pagingOf machine with free := rest }) := by
  change
    ((Vmm.pmmAllocPage (pagingOf machine)).1,
      withPaging machine
        (Vmm.pmmAllocPage (pagingOf machine)).2) = _
  have hCons : (pagingOf machine).free = page :: rest := hFree
  unfold Vmm.pmmAllocPage
  rw [hCons]

/- A frame that is handed out is in use, and spare. -/
theorem Holds.alloc
    (hHolds : Holds root space used machine)
    (hTaken : (pageManager.pmmAllocPage machine).1 ≠ 0) :
    let taken := pageManager.pmmAllocPage machine
    Holds root space (used ++ [taken.1]) taken.2 ∧
      space.Spare taken.1 := by
  cases hFree : machine.rest.free with
  | nil =>
      rw [pmmAllocPage_of_nil hFree] at hTaken
      exact absurd rfl hTaken
  | cons page rest =>
      have hAlloc :=
        hHolds.forest.alloc hHolds.outstanding hFree
      dsimp only
      rw [pmmAllocPage_of_cons hFree]
      constructor
      · exact
          { root_ne := hHolds.root_ne
            forest := hAlloc.1
            shows := hHolds.shows.of_tables rfl
            outstanding := hAlloc.2
            owns := fun number shown hShown =>
              ⟨List.mem_append_left _
                (hHolds.owns number shown hShown).1,
                (hHolds.owns number shown hShown).2⟩
            distinct := hHolds.distinct
            bytes := hHolds.bytes }
      · rintro number shown hShown rfl
        refine hHolds.outstanding.not_free _
          (hHolds.owns number shown hShown).1 ?_
        change _ ∈ machine.rest.free
        rw [hFree]
        exact List.mem_cons_self

/- Asking for a frame when there is none. -/
theorem Holds.allocNothing
    (hHolds : Holds root space used machine)
    (hNothing : (pageManager.pmmAllocPage machine).1 = 0) :
    Holds root space used
      (pageManager.pmmAllocPage machine).2 := by
  cases hFree : machine.rest.free with
  | nil =>
      rw [pmmAllocPage_of_nil hFree]
      exact hHolds.of_bytes _ rfl rfl fun _ _ _ _ _ => rfl
  | cons page rest =>
      rw [pmmAllocPage_of_cons hFree] at hNothing
      have hFrame :=
        hHolds.forest.free_frame page
          (show page ∈ machine.rest.free from
            hFree ▸ List.mem_cons_self)
      exact absurd hNothing hFrame.1

/- Bytes are stored in a spare frame. -/
theorem Holds.store
    (hHolds : Holds root space used machine)
    {page : Nat}
    (hUsed : page ∈ used)
    (hSpare : space.Spare page)
    {offset count : Nat}
    (hInside : offset + count ≤ 4096)
    (source : Bytes) :
    Holds root space used
      (pageManager.storePhys (page + offset) count source
        machine) := by
  refine hHolds.of_bytes
    (pageManager.storePhys (page + offset) count source
      machine)
    rfl rfl ?_
  intro number shown hShown i hi
  apply write_of_not_mem
  have hNe := hSpare number shown hShown
  have hShownMod := (hHolds.isFrame hShown).2.1
  have hPageMod := (hHolds.outstanding.frame page hUsed).2.1
  omega

/- Other tables that show the same pages. -/
theorem Holds.keep
    (hHolds : Holds root space used machine)
    {paging : Paging}
    (hForest : PageForest [root] paging)
    (hOutstanding : Outstanding [root] paging used)
    (hShows : ShowsPages root paging space.frames) :
    Holds root space used (withPaging machine paging) where
  root_ne := hHolds.root_ne
  forest := hForest
  shows := hShows
  outstanding := hOutstanding
  owns := hHolds.owns
  distinct := hHolds.distinct
  bytes := hHolds.bytes

/- Other tables that show a spare frame as well. -/
theorem Holds.add
    (hHolds : Holds root space used machine)
    {paging : Paging}
    (hForest : PageForest [root] paging)
    (hOutstanding : Outstanding [root] paging used)
    {number page flags : Nat}
    {bytes : Bytes}
    (hReserved : Reserved space used page bytes machine)
    (hArguments : MapArguments page flags)
    (hShows :
      ShowsPages root paging
        (Function.update space.frames number
          (some ⟨page, flags⟩))) :
    Holds root
      (space.put number ⟨⟨page, flags⟩, bytes⟩)
      used (withPaging machine paging) where
  root_ne := hHolds.root_ne
  forest := hForest
  shows := by
    rw [space.frames_put]
    exact hShows
  outstanding := hOutstanding
  owns := by
    intro other shown hShown
    by_cases hOther : other = number
    · subst hOther
      rw [space.put_self] at hShown
      cases hShown
      exact ⟨hReserved.mem, hArguments⟩
    · rw [space.put_of_ne _ hOther] at hShown
      exact hHolds.owns other shown hShown
  distinct := by
    intro other other' shown shown' hShown hShown' hSame
    by_cases hOther : other = number
    · by_cases hOther' : other' = number
      · exact hOther.trans hOther'.symm
      · subst hOther
        rw [space.put_self] at hShown
        cases hShown
        rw [space.put_of_ne _ hOther'] at hShown'
        exact absurd hSame.symm
          (hReserved.spare other' shown' hShown')
    · rw [space.put_of_ne _ hOther] at hShown
      by_cases hOther' : other' = number
      · subst hOther'
        rw [space.put_self] at hShown'
        cases hShown'
        exact absurd hSame (hReserved.spare other shown hShown)
      · rw [space.put_of_ne _ hOther'] at hShown'
        exact hHolds.distinct other other' shown shown' hShown
          hShown' hSame
  bytes := by
    intro other shown hShown i hi
    by_cases hOther : other = number
    · subst hOther
      rw [space.put_self] at hShown
      cases hShown
      exact hReserved.bytes i hi
    · rw [space.put_of_ne _ hOther] at hShown
      exact hHolds.bytes other shown hShown i hi

/- What mapping a frame below the root does to the tables. -/
theorem vmmMapPageInSpace_eq
    (hRoot : root ≠ 0)
    (target page flags : Nat) :
    pageManager.vmmMapPageInSpace root target page flags
        machine =
      ((mapAtLevelInRoot root target page pageSize 12 flags
          (pagingOf machine)).1,
        withPaging machine
          (mapAtLevelInRoot root target page pageSize 12 flags
            (pagingOf machine)).2) := by
  change
    ((Vmm.vmmMapPageInSpace root target page flags
        (pagingOf machine)).1,
      withPaging machine
        (Vmm.vmmMapPageInSpace root target page flags
          (pagingOf machine)).2) = _
  rw [Vmm.vmmMapPageInSpace, if_neg hRoot]

/-
  A mapping call adds the reserved frame as a page, or
  changes no page.
-/
theorem Holds.map
    (hHolds : Holds root space used machine)
    (target : Nat)
    {page flags : Nat}
    {bytes : Bytes}
    (hReserved : Reserved space used page bytes machine)
    (hUser : flags &&& Vmm.vmmUser ≠ 0)
    (hArguments : MapArguments page flags) :
    let mapped :=
      pageManager.vmmMapPageInSpace root target page flags
        machine
    let shown : UserPage := ⟨⟨page, flags⟩, bytes⟩
    Holds root
        (if mapped.1 then space.put (pageNumber target) shown
        else space)
        used mapped.2 ∧
      (mapped.1 = true → pageNumber target < 2 ^ 35 →
        space (pageNumber target) = none) := by
  have hRoot : root ∈ [root] := List.mem_singleton_self root
  have hLinkable :
      Linkable [root] root target (pagingOf machine) :=
    .inl fun other hOther => List.mem_singleton.mp hOther
  have hMaps :=
    @mapAtLevelInRoot_mapsPage [root] root target page flags
      (pagingOf machine) hRoot hHolds.forest hLinkable
  have hOutcome :=
    @mapAtLevelInRoot_outcome [root] root target page flags 3
      (pagingOf machine) hHolds.forest hRoot (by simp)
      ⟨Nat.lt_trans hArguments.physical_lt (by decide),
        hArguments.flags_lt⟩
      (.inl rfl) hLinkable
  have hPages :=
    hHolds.shows.mapPage hRoot hUser hArguments hMaps
  have hOutstanding :=
    hHolds.outstanding.of_adds hOutcome.adds
      hOutcome.free.subset
  have hForest := hOutcome.forest
  have hCall :
      mapAtLevelInRoot root target page (2 ^ levelShift 3)
          (levelShift 3) flags (pagingOf machine) =
        mapAtLevelInRoot root target page pageSize 12 flags
          (pagingOf machine) := rfl
  rw [hCall] at hOutstanding hForest
  dsimp only
  rw [vmmMapPageInSpace_eq hHolds.root_ne]
  constructor
  · cases hOk :
        (mapAtLevelInRoot root target page pageSize 12 flags
          (pagingOf machine)).1 with
    | false =>
        rw [hOk, if_neg Bool.false_ne_true] at hPages
        exact hHolds.keep hForest hOutstanding hPages.1
    | true =>
        rw [hOk, if_pos rfl] at hPages
        exact hHolds.add hForest hOutstanding hReserved
          hArguments hPages.1
  · intro hOk hHalf
    exact Option.map_eq_none_iff.mp (hPages.2 hOk hHalf)

/- Flags that a mapping may have. -/
structure UserFlags
    (flags : Nat) : Prop where
  user : flags &&& Vmm.vmmUser ≠ 0
  flags_lt : flags < 2 ^ 64
  flags_clear : flags &&& pteAddrMask = 0

/- A frame that is cleared and filled in part is reserved. -/
theorem Holds.fill
    (hHolds : Holds root space used machine)
    (hTaken : (pageManager.pmmAllocPage machine).1 ≠ 0)
    {offset count : Nat}
    (hInside : offset + count ≤ 4096)
    (source : Bytes) :
    let taken := pageManager.pmmAllocPage machine
    let filled :=
      pageManager.storePhys (taken.1 + offset) count source
        (pageManager.storePhys taken.1 vmmPageSize zeros
          taken.2)
    Holds root space (used ++ [taken.1]) filled ∧
      Reserved space (used ++ [taken.1]) taken.1
        (write zeros offset count source) filled := by
  intro taken filled
  rcases hHolds.alloc hTaken with ⟨hAlloc, hSpare⟩
  have hUsed : taken.1 ∈ used ++ [taken.1] :=
    List.mem_append_right _ List.mem_cons_self
  refine ⟨Holds.store
    (hAlloc.store hUsed hSpare
      (show 0 + vmmPageSize ≤ 4096 from Nat.le_refl _) zeros)
    hUsed hSpare hInside source, hUsed, hSpare, ?_⟩
  -- The frame has what was stored in it.
  intro i hi
  change
    write (write taken.2.memory taken.1 4096 zeros)
        (taken.1 + offset) count source (taken.1 + i) =
      write zeros offset count source i
  unfold write
  by_cases hIn : offset ≤ i ∧ i < offset + count
  · rw [if_pos (by omega), if_pos hIn]
    congr 1
    omega
  · rw [if_neg (by omega), if_neg hIn, if_pos (by omega)]
    rfl

/- A reserved frame is still reserved after a page is added. -/
theorem Reserved.put
    {other number : Nat}
    {bytes : Bytes}
    {page : UserPage}
    (hReserved : Reserved space used other bytes machine)
    {filled : UserMachine δ}
    (hUsed : used ⊆ used')
    (hNe : page.frame.physical ≠ other)
    (hBytes :
      ∀ i, i < 4096 →
        filled.memory (other + i) =
          machine.memory (other + i)) :
    Reserved (space.put number page) used' other bytes
      filled where
  mem := hUsed hReserved.mem
  spare := by
    intro number' page' hPage
    by_cases hNumber : number' = number
    · rw [hNumber, space.put_self] at hPage
      cases hPage
      exact hNe
    · rw [space.put_of_ne _ hNumber] at hPage
      exact hReserved.spare number' page' hPage
  bytes := fun i hi =>
    (hBytes i hi).trans (hReserved.bytes i hi)

/- A frame is cleared, filled in part and mapped. -/
theorem Holds.newPage
    (hHolds : Holds root space used machine)
    (hTaken : (pageManager.pmmAllocPage machine).1 ≠ 0)
    (target : Nat)
    {flags offset count : Nat}
    (hFlags : UserFlags flags)
    (hInside : offset + count ≤ 4096)
    (source : Bytes) :
    let taken := pageManager.pmmAllocPage machine
    let filled :=
      pageManager.storePhys (taken.1 + offset) count source
        (pageManager.storePhys taken.1 vmmPageSize zeros
          taken.2)
    let mapped :=
      pageManager.vmmMapPageInSpace root target taken.1 flags
        filled
    let shown : UserPage :=
      ⟨⟨taken.1, flags⟩, write zeros offset count source⟩
    let after := space.put (pageNumber target) shown
    (mapped.1 = false →
        Holds root space (used ++ [taken.1]) mapped.2) ∧
      (mapped.1 = true →
        Holds root after (used ++ [taken.1]) mapped.2 ∧
          (pageNumber target < 2 ^ 35 →
            space (pageNumber target) = none) ∧
          ∀ other bytes,
            Reserved space used other bytes machine →
              Reserved after (used ++ [taken.1]) other bytes
                mapped.2) := by
  intro taken filled mapped shown after
  rcases hHolds.fill hTaken hInside source with
    ⟨hFilled, hReserved⟩
  have hOutstanding := hFilled.outstanding
  have hFrame : IsFrame taken.1 :=
    hOutstanding.frame _ hReserved.mem
  have hMap :=
    hFilled.map target hReserved hFlags.user
      ⟨hFrame.2.2, hFlags.flags_lt, hFlags.flags_clear⟩
  constructor
  · intro hRefused
    have hHeld := hMap.1
    rw [show mapped.1 = false from hRefused] at hHeld
    exact hHeld
  intro hMapped
  refine ⟨?_, hMap.2 hMapped, ?_⟩
  · have hHeld := hMap.1
    rw [if_pos hMapped] at hHeld
    exact hHeld
  · intro other bytes hOther
    have hNe : other ≠ taken.1 := by
      have hNodup := hOutstanding.nodup
      rw [List.nodup_append] at hNodup
      exact hNodup.2.2 other hOther.mem taken.1
        List.mem_cons_self
    have hOtherMod :=
      (hHolds.outstanding.frame other hOther.mem).2.1
    have hFrameMod := hFrame.2.1
    apply hOther.put (List.subset_append_left _ _) hNe.symm
    intro i hi
    change
      write (write machine.memory taken.1 4096 zeros)
          (taken.1 + offset) count source (other + i) =
        machine.memory (other + i)
    rw [write_of_not_mem (by omega),
      write_of_not_mem (by omega)]

/- The tables of the machine, with the active root's. -/
def Rooted
    (machine : UserMachine δ) : Prop :=
  ∃ roots, PageForest roots (pagingOf machine) ∧
    machine.pml4 ∈ roots

/- A new space is held, and has no pages. -/
theorem holds_created
    (hRooted : Rooted machine)
    (hCreated :
      (Vmm.vmmCreateAddressSpace (spacesOf machine)).1 ≠ 0) :
    let created := Vmm.vmmCreateAddressSpace (spacesOf machine)
    Holds created.1 (fun _ => none) []
      (withSpaces machine created.2) := by
  rcases hRooted with ⟨roots, hForest, hActive⟩
  cases hFree : machine.rest.free with
  | nil =>
      refine absurd ?_ hCreated
      have hNone : (spacesOf machine).paging.free = [] := hFree
      simp [Vmm.vmmCreateAddressSpace, Vmm.pmmAllocPage, hNone]
  | cons page rest =>
      have hCons :
          (spacesOf machine).paging.free = page :: rest :=
        hFree
      have hFrame : IsFrame page :=
        hForest.free_frame page
          (by rw [hCons]; exact List.mem_cons_self)
      have hSpaces :
          Vmm.vmmCreateAddressSpace (spacesOf machine) =
            (page,
              (spacesOf machine).withPaging
                (copyKernelHalf machine.pml4 page
                  (({ (spacesOf machine).paging with
                      free := rest } : Paging).clear
                    page))) := by
        simp only [Vmm.vmmCreateAddressSpace,
          Vmm.pmmAllocPage, hCons]
        rw [if_neg hFrame.1]
        rfl
      dsimp only
      rw [hSpaces]
      have hNew := hForest.create hActive hCons
      exact
        { root_ne := hFrame.1
          forest :=
            hNew.1.of_roots
              (List.cons_subset_cons page
                (List.nil_subset roots))
          shows := hForest.create_shows hActive hCons
          outstanding := Outstanding.nil _ _
          owns := fun _ _ hNone => by cases hNone
          distinct := fun _ _ _ _ hNone => by cases hNone
          bytes := fun _ _ hNone => by cases hNone }

end Adding

end Userspace

end Whirliscope
