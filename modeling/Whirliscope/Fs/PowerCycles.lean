import Whirliscope.Fs.Remount

/-
  The power fails after calls on files. What was saved on the
  device comes back with the next mount: over any number of
  sessions the files hold what the calls have written.

  Key definitions include:
    * `savedBy`
    * `Session`, `runSessions`
    * `Serving`

  Main theorem:
    * `sessions_keep_files`
-/

------------------------------------------------------------
-- Saved Files
------------------------------------------------------------

namespace Whirliscope

namespace Ext2

open ByteMemory FaultProgram

/- Whether the medium holds the image after a reply. -/
def Reply.saves
    (saved : Bool) : Reply → Bool
| .flag ok => ok
| .code result => decide (0 ≤ result)
| _ => saved

def savedBy
    (saved : Bool) : List Reply → Bool
| [] => saved
| reply :: replies => savedBy (reply.saves saved) replies

section

variable {invariant success : State → Prop} {s : State}

/- A call that only looks leaves everything as it is. -/
theorem ensures_looking
    {α : Type}
    (look : State → Except Fault α)
    (answer : α → Reply)
    {saved : Bool}
    (hSaves : ∀ value, (answer value).saves saved = saved)
    (hState : invariant s ∧ (saved = true → success s)) :
    Ensures (fun _ => True)
      (do return answer (← look (← get)) : Ext2M Reply) s
      fun reply final =>
        invariant final ∧
          (reply.saves saved = true → success final) := by
  rw [ensures_bind_iff, ensures_get_iff, ensures_bind_iff,
    ensures_lift_iff]
  apply (yields_trivial _).mono
  intro value _
  rw [ensures_pure_iff, hSaves value]
  exact hState

/- A reply that saves leaves what success leaves. -/
theorem Stable.ensures_saves
    (hStable : Stable invariant success)
    (call : Call)
    {saved : Bool}
    (hState : invariant s ∧ (saved = true → success s)) :
    Ensures (fun _ => True) call.run s fun reply final =>
      invariant final ∧
        (reply.saves saved = true → success final) := by
  have hCode :
      ∀ {program : Ext2M Int},
        Concludes invariant success program →
          Ensures (fun _ => True)
            (do return Reply.code (← program)) s
            fun reply final =>
              invariant final ∧
                (reply.saves saved = true →
                  success final) := by
    intro program hConcludes
    rw [ensures_bind_iff]
    apply (hConcludes s hState.1).mono
    rintro result final ⟨_, hFinal, hSuccess⟩
    rw [ensures_pure_iff]
    exact ⟨hFinal, fun hSaved =>
      hSuccess (of_decide_eq_true hSaved)⟩
  cases call with
  | writeFile path buffer len offset =>
      exact hCode (hStable.concludes_ext2WriteFile _ _ _ _)
  | createFile path =>
      exact hCode (hStable.concludes_ext2CreateFile _)
  | mkdir path => exact hCode (hStable.concludes_ext2Mkdir _)
  | unlink path => exact hCode (hStable.concludes_ext2Unlink _)
  | rmdir path => exact hCode (hStable.concludes_ext2Rmdir _)
  | truncateFile path size =>
      exact hCode (hStable.concludes_ext2TruncateFile _ _)
  | sync =>
      unfold Call.run
      rw [ensures_bind_iff]
      apply (hStable.sync s hState.1).mono
      rintro ok final ⟨hFinal, hSuccess⟩
      rw [ensures_pure_iff]
      exact ⟨hFinal, hSuccess⟩
  | getStatus =>
      exact ensures_looking ext2GetStatus Reply.status
        (fun _ => rfl) hState
  | listDir path maxEntries =>
      exact ensures_looking
        (fun s => ext2ListDir s path maxEntries)
        (fun found => .listing found.1 found.2)
        (fun _ => rfl) hState
  | stat path =>
      exact ensures_looking (fun s => ext2Stat s path)
        (fun found => .stat found.1 found.2)
        (fun _ => rfl) hState
  | readFile path buffer len offset =>
      exact ensures_looking
        (fun s => ext2ReadFile s path buffer len offset)
        (fun found => .read found.1 found.2)
        (fun _ => rfl) hState

/- So it is after every run. -/
theorem Stable.ensures_savedBy
    (hStable : Stable invariant success)
    (calls : List Call)
    {saved : Bool}
    (hState : invariant s ∧ (saved = true → success s)) :
    Ensures (fun _ => True) (runCalls calls) s
      fun replies final =>
        invariant final ∧
          (savedBy saved replies = true →
            success final) := by
  induction calls generalizing s saved with
  | nil =>
      unfold runCalls
      rw [ensures_pure_iff]
      exact hState
  | cons call calls ih =>
      unfold runCalls
      rw [ensures_bind_iff]
      apply (hStable.ensures_saves call hState).mono
      intro reply middle hMiddle
      rw [ensures_bind_iff]
      apply (ih hMiddle).mono
      intro replies final hFinal
      rw [ensures_pure_iff]
      exact hFinal

end

end Ext2

end Whirliscope

------------------------------------------------------------
-- Series of Runs
------------------------------------------------------------

namespace Whirliscope

namespace Ext2

section

variable {works works' : Prop} {target : Option CString → Target}
variable {content middle final : Nat → List UInt8}
variable {calls calls' : List Call}
variable {replies replies' : List Reply}

/- A medium that fails more often is served as well. -/
theorem Answered.weaken
    (hWorks : works' → works)
    {value code : Int}
    (hAnswered : Answered works value code) :
    Answered works' value code :=
  hAnswered.imp id fun hFault =>
    ⟨hFault.1, fun hWorks' => hFault.2 (hWorks hWorks')⟩

theorem Serves.weaken
    (hWorks : works' → works)
    {call : Call}
    {reply : Reply}
    (hServes : Serves works target content call reply final) :
    Serves works' target content call reply final := by
  cases hServes with
  | synced hOk => exact .synced fun h => hOk (hWorks h)
  | statNowhere hTarget => exact .statNowhere hTarget
  | statDirectory hTarget => exact .statDirectory hTarget
  | statFile hTarget => exact .statFile hTarget
  | readRefused hTarget => exact .readRefused hTarget
  | read hTarget hSource => exact .read hTarget hSource
  | writeRefused hCode hReason =>
      exact .writeRefused hCode hReason
  | truncateRefused hCode hReason =>
      exact .truncateRefused hCode hReason
  | written hTarget hStart hCode =>
      exact .written hTarget hStart (hCode.weaken hWorks)
  | truncated hTarget hCode =>
      exact .truncated hTarget (hCode.weaken hWorks)

theorem ServesAll.weaken
    (hWorks : works' → works)
    (hServes :
      ServesAll works target content calls replies final) :
    ServesAll works' target content calls replies final := by
  induction hServes with
  | nil content => exact .nil content
  | cons hCall _ ih => exact .cons (hCall.weaken hWorks) ih

theorem ServesAll.append
    (hFirst :
      ServesAll works target content calls replies middle)
    (hRest :
      ServesAll works target middle calls' replies' final) :
    ServesAll works target content (calls ++ calls')
      (replies ++ replies') final := by
  induction hFirst with
  | nil => exact hRest
  | cons hCall _ ih => exact .cons hCall (ih hRest)

end

end Ext2

end Whirliscope

------------------------------------------------------------
-- Power Cycles
------------------------------------------------------------

namespace Whirliscope

namespace Rootfs

open ByteMemory FaultProgram
open Ext2 (Ext2M State Call Reply Geometry Volume Target Sane
  Holds SoundFiles Shows DirsReadable ServesAll AgreeBelow
  runCalls savedBy)

/- The memory is lost; the device keeps its contents. -/
def powerCycle
    (memory : State) : Ext2M Unit :=
  modify fun s => { memory with medium := s.medium }

/- Calls on files, and what the next mount finds. -/
structure Session where
  calls : List Call
  memory : State
  kmalloc : Nat → Option Bytes

/- How a series of sessions ends. -/
inductive Ending where
| finished
| unsaved
| unmounted
deriving DecidableEq

/-
  Sessions on a mounted device. After each session that left
  its files saved the power fails, and the device is mounted
  again.
-/
def runSessions
    (device : BlockDevice) :
    List Session → Ext2M (List Reply × Ending)
| [] => return ([], .finished)
| session :: sessions => do
    let replies ← runCalls session.calls
    if savedBy true replies = false then
      return (replies, .unsaved)
    powerCycle session.memory
    let mounted ← tryMountDevice device session.kmalloc
    if mounted = false then
      return (replies, .unmounted)
    let (rest, ending) ← runSessions device sessions
    return (replies ++ rest, ending)

/- A device whose file system has this header mounts again. -/
structure Rootable
    (device : BlockDevice)
    (G : Geometry)
    (sectors : Nat)
    (fixed : Bytes) : Prop where
  size : G.fsSize = sectors * 512
  sectorSize : device.sectorSize = 512
  mountable : Mountable fixed (sectors * 512)
  blockSize : Ext2.headerBlockSize fixed = G.blockSize
  groupCount : Ext2.headerGroupCount fixed = G.groupCount
  valid :
    ∀ contents, HeadersAgree fixed contents →
      ∀ stack,
        validateCandidate device contents stack =
          some (sectors * 512, sectors)

section

variable {device : BlockDevice} {sectors : Nat}
variable {G : Geometry} {V : Volume} {s mounted : State}
variable {target : Option Ext2.CString → Target}
variable {content : Nat → List UInt8}

theorem headersAgree_of_holds
    (hHolds : Holds G V s) :
    HeadersAgree V.fixed s.image :=
  (hHolds.cells .superblock trivial).2.2

theorem Rootable.congr
    {fixed fixed' : Bytes}
    (hRootable : Rootable device G sectors fixed)
    (hAgree : HeadersAgree fixed fixed') :
    Rootable device G sectors fixed' where
  size := hRootable.size
  sectorSize := hRootable.sectorSize
  mountable := hRootable.mountable.congr hAgree
  blockSize := hAgree.blockSize_eq.trans hRootable.blockSize
  groupCount := hAgree.groupCount_eq.trans hRootable.groupCount
  valid := fun contents hContents =>
    hRootable.valid contents (hAgree.trans hContents)

theorem MountedFrom.rootable
    (hReads : device.ReadsSectors)
    (hFrom : MountedFrom device s sectors mounted)
    (hHolds : Holds G V mounted) :
    Rootable device G sectors V.fixed := by
  have hImage :=
    headersAgree_of_agreeBelow hFrom.image
      hFrom.mountable.inside
  have hAgree : HeadersAgree s.medium V.fixed :=
    hImage.trans (headersAgree_of_holds hHolds).symm
  exact
    { size := hHolds.fsSize.symm.trans hFrom.fsSize
      sectorSize := (validateCandidate_facts hFrom.valid).1
      mountable := hFrom.mountable.congr hAgree
      blockSize :=
        hAgree.blockSize_eq.trans
          (hFrom.blockSize.symm.trans hHolds.blockSize)
      groupCount :=
        hAgree.groupCount_eq.trans
          (hFrom.groupCount.symm.trans hHolds.groupCount)
      valid := fun _ hContents stack =>
        validateCandidate_eq_some hReads hFrom.valid
          (hAgree.trans hContents) stack }

/- A mounted device whose files the store knows. -/
structure Serving
    (device : BlockDevice)
    (G : Geometry)
    (sectors : Nat)
    (target : Option Ext2.CString → Target)
    (V : Volume)
    (s : State)
    (content : Nat → List UInt8) : Prop where
  rootable : Rootable device G sectors V.fixed
  writeback :
    s.writeback = some (rootfsWriteback device sectors)
  sound : SoundFiles G V s
  shows : Shows G V s target content
  dirs : DirsReadable G V s

/- What the device holds is mounted with the same files. -/
theorem Serving.ensures_remount
    (hReads : device.ReadsSectors)
    (hSane : Sane G)
    (hServing : Serving device G sectors target V s content)
    (hSynced : Synced sectors s)
    (memory : State)
    {kmalloc : Nat → Option Bytes}
    (hBuffer : kmalloc G.fsSize ≠ none) :
    Ensures (fun _ => False) (tryMountDevice device kmalloc)
      { memory with medium := s.medium }
      fun mounted final =>
        mounted = true ∧ Synced sectors final ∧
          ∃ V', Serving device G sectors target V' final
            content := by
  have hRootable := hServing.rootable
  have hHolds := hServing.sound.holds
  have hMedium : HeadersAgree V.fixed s.medium :=
    (headersAgree_of_holds hHolds).trans
      (headersAgree_of_agreeBelow hSynced
        hRootable.mountable.inside)
  have hValid :=
    hRootable.valid s.medium hMedium memory.stackBytes
  rw [hRootable.size] at hBuffer
  apply (ensures_tryMountDevice_image hReads kmalloc _).mono
  rintro mounted final ⟨hFrom, hSucceeds⟩
  have hMounted : mounted = true :=
    hSucceeds sectors hValid hBuffer
      (hRootable.mountable.congr hMedium)
  rcases hFrom hMounted with ⟨sectors', hFrom⟩
  have hSame : sectors' = sectors := by
    have hPair := hFrom.valid.symm.trans hValid
    injection hPair with hPair
    injection hPair
  subst hSame
  have hAgree : AgreeBelow G.fsSize s.image final.image := by
    intro i hi
    rw [hRootable.size] at hi
    exact (hFrom.image i hi).trans (hSynced i hi)
  have hHolds' :
      Holds G (V.withTail G.fsSize final.image) final := by
    apply Holds.withTail hSane hHolds hAgree hFrom.fsImage
      hFrom.superblock
    · rw [hFrom.fsSize, hRootable.size]
    · rw [hFrom.blockSize]
      exact hMedium.blockSize_eq.trans hRootable.blockSize
    · rw [hFrom.groupCount]
      exact hMedium.groupCount_eq.trans hRootable.groupCount
  have hFixed :
      HeadersAgree V.fixed
        (V.withTail G.fsSize final.image).fixed :=
    headersAgree_of_agreeBelow (V.withTail_fixed _ _)
      hSane.superblock_inside
  rcases hServing.sound.withFixed hSane hServing.dirs hHolds'
      hServing.shows with ⟨hSound', hShows', hDirs'⟩
  refine ⟨hMounted, ?_, _,
    ⟨hRootable.congr hFixed, hFrom.writeback, hSound', hShows',
      hDirs'⟩⟩
  intro i hi
  rw [hFrom.medium]
  exact (hFrom.image i hi).symm

/- A run of calls on a device whose files are saved. -/
theorem Serving.ensures_calls
    (hWrites : device.WritesSectors)
    (hSane : Sane G)
    (hServing : Serving device G sectors target V s content)
    (hSynced : Synced sectors s)
    {calls : List Call}
    (hCalls : ∀ call ∈ calls, call.OnFiles) :
    Ensures (fun _ => False) (runCalls calls) s
      fun replies final =>
        (savedBy true replies = true →
          Synced sectors final) ∧
        ∃ V' content',
          Serving device G sectors target V' final content' ∧
            ServesAll False target content calls replies
              content' := by
  have hStable :
      Ext2.Stable (Rooted device sectors s.medium)
        (Synced sectors) :=
    rooted_stable hWrites hServing.rootable.sectorSize
  have hRooted : Rooted device sectors s.medium s :=
    { size :=
        hServing.sound.holds.fsSize.trans
          hServing.rootable.size
      writeback := hServing.writeback
      beyond := fun _ _ => rfl }
  have hStart :
      Rooted device sectors s.medium s ∧
        (true = true → Synced sectors s) :=
    ⟨hRooted, fun _ => hSynced⟩
  apply ((hServing.sound.ensures_runCalls hSane hServing.shows
    hCalls).and (hStable.ensures_savedBy calls hStart)).mono
  rintro replies final
    ⟨⟨V', content', hSound, hShows, hServes, hFixed, hDirs⟩,
      hFinal, hSaved⟩
  refine ⟨hSaved, V', content', ?_,
    hServes.weaken False.elim⟩
  exact
    { rootable := by
        rw [hFixed]
        exact hServing.rootable
      writeback := hFinal.writeback
      sound := hSound
      shows := hShows
      dirs := hDirs hServing.dirs }

/- The sessions up to the last one that was run. -/
theorem Serving.ensures_runSessions
    (hWrites : device.WritesSectors)
    (hReads : device.ReadsSectors)
    (hSane : Sane G)
    (hServing : Serving device G sectors target V s content)
    (hSynced : Synced sectors s)
    {sessions : List Session}
    (hSessions :
      ∀ session ∈ sessions,
        (∀ call ∈ session.calls, call.OnFiles) ∧
          session.kmalloc G.fsSize ≠ none) :
    Ensures (fun _ => False) (runSessions device sessions) s
      fun result final =>
        result.2 ≠ .unmounted ∧
          ∃ V' content' served,
            Serving device G sectors target V' final
                content' ∧
              served <+: sessions.flatMap Session.calls ∧
              (result.2 = .finished →
                served = sessions.flatMap Session.calls) ∧
              ServesAll False target content served result.1
                content' := by
  induction sessions generalizing s V content with
  | nil =>
      unfold runSessions
      rw [ensures_pure_iff]
      exact ⟨fun hNever => Ending.noConfusion hNever, V,
        content, [], hServing, List.prefix_rfl, fun _ => rfl,
        .nil content⟩
  | cons session sessions ih =>
      rw [List.forall_mem_cons] at hSessions
      rcases hSessions with ⟨⟨hCalls, hBuffer⟩, hRest⟩
      unfold runSessions
      rw [ensures_bind_iff]
      apply (hServing.ensures_calls hWrites hSane hSynced
        hCalls).mono
      rintro replies later
        ⟨hSaved, V₁, content₁, hServing₁, hServes₁⟩
      rw [ensures_ite_iff]
      constructor
      · intro _
        rw [ensures_pure_iff, List.flatMap_cons]
        exact ⟨fun hNever => Ending.noConfusion hNever, V₁,
          content₁, session.calls, hServing₁,
          List.prefix_append _ _,
          fun hNever => Ending.noConfusion hNever, hServes₁⟩
      · intro hNot
        rw [Bool.not_eq_false] at hNot
        unfold powerCycle
        rw [ensures_bind_iff, ensures_modify_iff,
          ensures_bind_iff]
        apply (hServing₁.ensures_remount hReads hSane
          (hSaved hNot) session.memory hBuffer).mono
        rintro mounted again ⟨rfl, hSynced₂, V₂, hServing₂⟩
        rw [if_neg (Ne.symm Bool.false_ne_true),
          ensures_bind_iff]
        apply (ih hServing₂ hSynced₂ hRest).mono
        rintro ⟨replies', ending⟩ final
          ⟨hEnding, V₃, content₃, served, hServing₃, hPrefix,
            hAll, hServes₃⟩
        rw [ensures_pure_iff, List.flatMap_cons]
        exact ⟨hEnding, V₃, content₃,
          session.calls ++ served, hServing₃,
          (List.prefix_append_right_inj _).mpr hPrefix,
          fun hDone => by rw [hAll hDone],
          hServes₁.append hServes₃⟩

end

end Rootfs

end Whirliscope

------------------------------------------------------------
-- A Labelled Volume
------------------------------------------------------------

namespace Whirliscope

namespace Rootfs

open ByteMemory FaultProgram
open Ext2 (State Volume Holds SoundFiles DirsReadable Shows
  AgreeBelow smallImage smallState smallVolume smallGeometry
  smallGeometry_sane smallState_holds smallState_wellOwned
  smallState_dirsReadable smallState_shows smallCalls
  smallCalls_onFiles)

/- The small volume with the label of a root file system. -/
def labelledImage : Bytes :=
  putLE smallImage 1144 9 0x544f4f524c52494857

def labelledStart : State :=
  { Ext2.emptyState with medium := labelledImage }

/- Apart from the label it is the small volume. -/
theorem labelledImage_eq
    {i : Nat}
    (hApart : i < 1144 ∨ 1160 ≤ i) :
    labelledImage i = smallImage i := by
  unfold labelledImage putLE
  apply write_of_not_mem
  omega

theorem sampleDevice_reads :
    sampleDevice.ReadsSectors := by
  rintro _ ⟨rfl⟩ lba buffer sectorCount contents _
  rfl

theorem labelled_valid :
    validateCandidate sampleDevice labelledStart.medium
        labelledStart.stackBytes =
      some (32 * 512, 32) := by
  decide +kernel

theorem labelled_mountable :
    Mountable labelledStart.medium (32 * 512) where
  inside := by decide
  accepted := by decide
  descriptor := by decide

/- A mount of the labelled volume shows the small volume. -/
theorem holds_of_labelled
    {s : State}
    (hFrom :
      MountedFrom sampleDevice labelledStart 32 s) :
    Holds smallGeometry (smallVolume.withFixed s.image) s := by
  have hImage :
      ∀ i < 16384, i < 1144 ∨ 1160 ≤ i →
        s.image i = smallImage i := by
    intro i hi hApart
    rw [← labelledImage_eq hApart]
    exact hFrom.image i hi
  have hCell :
      ∀ cell, smallGeometry.HasCell cell →
        cell ≠ .superblock →
          ∀ address, smallGeometry.InCell cell address →
            s.image address = smallImage address := by
    intro cell hCell hNe address hAddress
    have hOther : smallGeometry.HasCell .superblock := trivial
    have hApart :=
      smallGeometry_sane.cells_apart hCell hOther hNe
    have hBase :
        smallGeometry.cellBase .superblock = 1024 := rfl
    have hExtent :
        smallGeometry.cellExtent .superblock = 136 := rfl
    have hBelow :=
      smallGeometry_sane.inCell_lt hCell hAddress
    unfold Ext2.Geometry.InCell at hAddress
    exact hImage address hBelow (by omega)
  exact
    { fsImage := hFrom.fsImage
      superblock := hFrom.superblock
      fsSize := hFrom.fsSize
      blockSize := hFrom.blockSize.trans (by decide)
      groupCount := hFrom.groupCount.trans (by decide)
      header := by
        have hAgree : AgreeBelow 1144 smallImage s.image :=
          fun i hi => hImage i (by omega) (.inl hi)
        exact smallState_holds.header.congr hAgree (by decide)
      descriptors := fun group hGroup =>
        (smallState_holds.descriptors group hGroup).congr
          (hCell (.groupDesc group) hGroup
            fun hNever => by cases hNever)
      cells := by
        intro cell hHas
        by_cases hSame : cell = .superblock
        · subst hSame
          refine ⟨?_, ?_, fun _ _ _ => rfl⟩
          all_goals
            have hAgree : AgreeBelow 1144 smallImage s.image :=
              fun i hi => hImage i (by omega) (.inl hi)
            exact hAgree.getLE_eq (by decide)
        · have hShown :=
            (smallState_holds.cells cell hHas).congr
              smallGeometry_sane
              (hCell cell hHas hSame)
          exact hShown.withFixed (hCell cell hHas hSame)
      outside := fun _ _ => rfl }

/- The labelled volume mounts, with the files of the small. -/
theorem exists_labelled :
    ∃ mounted V target,
      Returns (tryMountDevice sampleDevice sampleBuffer)
          labelledStart true mounted ∧
        SoundFiles smallGeometry V mounted ∧
        DirsReadable smallGeometry V mounted ∧
        Shows smallGeometry V mounted target
          (smallVolume.content smallGeometry) := by
  have hMount :=
    ensures_tryMountDevice_image sampleDevice_reads
      sampleBuffer labelledStart
  rcases hMount.exists_returns with
    ⟨ok, mounted, hReturns, hFrom, hSucceeds⟩
  have hOk : ok = true :=
    hSucceeds 32 labelled_valid (Option.some_ne_none _)
      labelled_mountable
  subst hOk
  rcases hFrom rfl with ⟨sectors, hFrom⟩
  have hSectors : sectors = 32 := by
    have hPair := hFrom.valid.symm.trans labelled_valid
    injection hPair with hPair
    injection hPair
  subst hSectors
  have hSound :=
    smallState_wellOwned.soundFiles smallState_holds
      (smallState_dirsReadable.namesAllocated
        smallGeometry_sane smallState_holds)
  rcases smallState_shows with ⟨target, hShows, -⟩
  rcases hSound.withFixed smallGeometry_sane
      smallState_dirsReadable (holds_of_labelled hFrom)
      hShows with ⟨hSound', hShows', hDirs'⟩
  exact ⟨mounted, _, target, hReturns, hSound', hDirs',
    hShows'⟩

/- Two sessions, each before the power fails. -/
def labelledSessions : List Session :=
  [⟨smallCalls, Ext2.emptyState, sampleBuffer⟩,
    ⟨smallCalls, smallState, sampleBuffer⟩]

theorem labelledSessions_onFiles :
    ∀ session ∈ labelledSessions,
      (∀ call ∈ session.calls, call.OnFiles) ∧
        session.kmalloc smallGeometry.fsSize ≠ none := by
  intro session hMem
  have hBuffer :
      sampleBuffer smallGeometry.fsSize ≠ none :=
    Option.some_ne_none _
  simp only [labelledSessions, List.mem_cons,
    List.not_mem_nil, or_false] at hMem
  rcases hMem with rfl | rfl
  · exact ⟨smallCalls_onFiles, hBuffer⟩
  · exact ⟨smallCalls_onFiles, hBuffer⟩

end Rootfs

end Whirliscope

------------------------------------------------------------
-- Files Across Power Cycles
------------------------------------------------------------

namespace Whirliscope

namespace Rootfs

open ByteMemory FaultProgram
open Ext2 (State Reply Geometry Volume Target Sane SoundFiles
  Shows DirsReadable ServesAll AgreeBelow smallVolume
  smallGeometry smallGeometry_sane)

section

variable {device : BlockDevice}
variable {G : Geometry} {V : Volume} {start mounted : State}
variable {target : Option Ext2.CString → Target}
variable {content : Nat → List UInt8}

/-
  Over any number of power cycles the files are those of one
  store: every mount after a session that was saved succeeds,
  and finds each file as the calls so far have left it.
-/
theorem sessions_keep_files
    (hWrites : device.WritesSectors)
    (hReads : device.ReadsSectors)
    {kmalloc : Nat → Option Bytes}
    (hMount :
      Returns (tryMountDevice device kmalloc) start true
        mounted)
    (hSane : Sane G)
    (hSound : SoundFiles G V mounted)
    (hDirs : DirsReadable G V mounted)
    (hShows : Shows G V mounted target content)
    {sessions : List Session}
    (hSessions :
      ∀ session ∈ sessions,
        (∀ call ∈ session.calls, call.OnFiles) ∧
          session.kmalloc G.fsSize ≠ none) :
    Ensures (fun _ => False) (runSessions device sessions)
      mounted
      fun result final =>
        result.2 ≠ .unmounted ∧
          ∃ V' content' served,
            SoundFiles G V' final ∧
              Shows G V' final target content' ∧
              served <+: sessions.flatMap Session.calls ∧
              (result.2 = .finished →
                served = sessions.flatMap Session.calls) ∧
              ServesAll False target content served result.1
                content' := by
  have hFrom :=
    ((ensures_tryMountDevice_image hReads kmalloc
      start).of_returns hMount).1
  rcases hFrom rfl with ⟨sectors, hFrom⟩
  have hServing :
      Serving device G sectors target V mounted content :=
    { rootable := hFrom.rootable hReads hSound.holds
      writeback := hFrom.writeback
      sound := hSound
      shows := hShows
      dirs := hDirs }
  have hSynced : Synced sectors mounted := by
    intro i hi
    rw [hFrom.medium]
    exact (hFrom.image i hi).symm
  apply (hServing.ensures_runSessions hWrites hReads hSane
    hSynced hSessions).mono
  rintro result final
    ⟨hEnding, V', content', served, hServing', hPrefix, hAll,
      hServes⟩
  exact ⟨hEnding, V', content', served, hServing'.sound,
    hServing'.shows, hPrefix, hAll, hServes⟩

end

/- The sessions on the labelled volume. -/
theorem labelledSessions_keep :
    ∃ mounted target,
      Returns (tryMountDevice sampleDevice sampleBuffer)
          labelledStart true mounted ∧
        Ensures (fun _ => False)
          (runSessions sampleDevice labelledSessions) mounted
          fun result final =>
            result.2 ≠ .unmounted ∧
              ∃ V' content' served,
                SoundFiles smallGeometry V' final ∧
                  Shows smallGeometry V' final target
                    content' ∧
                  served <+:
                    labelledSessions.flatMap Session.calls ∧
                  (result.2 = .finished →
                    served =
                      labelledSessions.flatMap
                        Session.calls) ∧
                  ServesAll False target
                    (smallVolume.content smallGeometry)
                    served result.1 content' := by
  rcases exists_labelled with
    ⟨mounted, V, target, hMount, hSound, hDirs, hShows⟩
  exact ⟨mounted, target, hMount,
    sessions_keep_files sampleDevice_writes
      sampleDevice_reads hMount smallGeometry_sane hSound
      hDirs hShows labelledSessions_onFiles⟩

end Rootfs

end Whirliscope
