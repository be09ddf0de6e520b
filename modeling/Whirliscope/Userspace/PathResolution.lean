import Whirliscope.Library.Components
import Whirliscope.Userspace.Syscall

/-
  The resolution of user paths.

  A path is resolved to the text of a stack of names. The
  resolver edits that text in place; every edit is a step on
  the stack.

  Key definitions include:
    * `NormalPath`
    * `resolveNames`
    * `Resolving`
    * `Resolves`

  Main theorems:
    * `resolvePathForCurrent_eq`
    * `NormalPath.resolves`
-/

------------------------------------------------------------
-- Normal Paths
------------------------------------------------------------

namespace Whirliscope

namespace Syscall

open Components
open Ext2 (slash)

/- What a normal path has between its slashes. -/
def IsName
    (name : List UInt8) : Prop :=
  name ≠ [] ∧ slash ∉ name ∧ name ≠ [dot] ∧
    name ≠ [dot, dot]

/- The path of a stack of names from the root. -/
def NormalPath
    (chars : List UInt8) : Prop :=
  ∃ names, (∀ name ∈ names, IsName name) ∧
    chars = render slash names

/- What one component does to the stack. -/
def pushName
    (stack : List (List UInt8))
    (name : List UInt8) : List (List UInt8) :=
  if name = [] ∨ name = [dot] then stack
  else if name = [dot, dot] then stack.dropLast
  else stack ++ [name]

/- The stack after all the pieces of a path. -/
def resolveNames
    (chars : List UInt8) : List (List UInt8) :=
  (chars.splitOn slash).foldl pushName []

theorem pushName_isName
    {stack : List (List UInt8)}
    {name : List UInt8}
    (hStack : ∀ other ∈ stack, IsName other)
    (hName : slash ∉ name) :
    ∀ other ∈ pushName stack name, IsName other := by
  intro other hOther
  unfold pushName at hOther
  split_ifs at hOther with hSkip hUp
  · exact hStack other hOther
  · exact hStack other
      ((List.dropLast_sublist _).subset hOther)
  · rcases List.mem_append.mp hOther with hOld | hNew
    · exact hStack other hOld
    · rw [List.mem_singleton.mp hNew]
      rw [not_or] at hSkip
      exact ⟨hSkip.1, hName, hSkip.2, hUp⟩

/- Empty pieces do not change the stack. -/
theorem foldl_components
    (stack : List (List UInt8))
    (pieces : List (List UInt8)) :
    (pieces.filter (· ≠ [])).foldl pushName stack =
      pieces.foldl pushName stack := by
  induction pieces generalizing stack with
  | nil => rfl
  | cons piece pieces ih =>
      by_cases hPiece : piece = []
      · rw [List.filter_cons_of_neg (by simpa using hPiece),
          List.foldl_cons, ih, hPiece]
        rfl
      · rw [List.filter_cons_of_pos (by simpa using hPiece),
          List.foldl_cons, List.foldl_cons, ih]

theorem resolveNames_eq
    (chars : List UInt8) :
    resolveNames chars =
      (components slash chars).foldl pushName [] :=
  (foldl_components [] _).symm

theorem foldl_pushName_isName
    {names stack : List (List UInt8)}
    (hStack : ∀ other ∈ stack, IsName other)
    (hNames : ∀ name ∈ names, slash ∉ name) :
    ∀ other ∈ names.foldl pushName stack, IsName other := by
  induction names generalizing stack with
  | nil => exact hStack
  | cons name names ih =>
      exact ih
        (pushName_isName hStack
          (hNames name List.mem_cons_self))
        fun other hOther =>
          hNames other (List.mem_cons_of_mem _ hOther)

theorem resolveNames_isName
    (chars : List UInt8) :
    ∀ name ∈ resolveNames chars, IsName name :=
  foldl_pushName_isName
    (fun _ hNever => absurd hNever List.not_mem_nil)
    fun _ hName => not_mem_of_mem_splitOn hName

end Syscall

end Whirliscope

------------------------------------------------------------
-- One Component
------------------------------------------------------------

namespace Whirliscope

namespace Syscall

open Components
open Ext2 (slash)

theorem length_render
    (names : List (List UInt8)) :
    (render slash names).length =
      max 1 (joined slash names).length := by
  cases names with
  | nil => rfl
  | cons name names =>
      rw [render_of_ne_nil (List.cons_ne_nil _ _)]
      simp only [joined, List.flatMap_cons, List.cons_append,
        List.length_cons]
      omega

theorem joined_length_of_ne_nil
    {names : List (List UInt8)}
    (hNames : ∀ name ∈ names, IsName name)
    (hStack : names ≠ []) :
    1 < (joined slash names).length := by
  cases names with
  | nil => exact absurd rfl hStack
  | cons name names =>
      have hName : name ≠ [] :=
        (hNames name List.mem_cons_self).1
      have hPos := List.length_pos_iff.mpr hName
      simp only [joined, List.flatMap_cons, List.cons_append,
        List.length_cons, List.length_append]
      omega

/- Dropping the last name, read backwards. -/
theorem trimName_append
    {name rest : List UInt8}
    (hName : slash ∉ name) :
    trimName (name ++ slash :: rest) = slash :: rest := by
  induction name with
  | nil =>
      cases rest with
      | nil => rfl
      | cons char rest =>
          rw [List.nil_append, trimName, if_pos rfl]
  | cons char name ih =>
      have hChar : char ≠ slash := fun hSame =>
        hName (by rw [hSame]; exact List.mem_cons_self)
      have hRest := ih fun hMem =>
        hName (List.mem_cons_of_mem _ hMem)
      cases name with
      | nil =>
          rw [List.cons_append, List.nil_append] at *
          rw [trimName, if_neg hChar]
          exact hRest
      | cons next name =>
          rw [List.cons_append, List.cons_append, trimName,
            if_neg hChar]
          exact hRest

/- The component `..` takes the last name off the stack. -/
theorem parentPath_render
    {names : List (List UInt8)}
    (hNames : ∀ name ∈ names, IsName name) :
    parentPath (render slash names) =
      render slash names.dropLast := by
  rcases List.eq_nil_or_concat names with rfl |
    ⟨front, last, rfl⟩
  · rfl
  rw [List.concat_eq_append] at *
  have hLast : IsName last := hNames last (by simp)
  have hFront : ∀ name ∈ front, IsName name :=
    fun name hName => hNames name (by simp [hName])
  have hLong := joined_length_of_ne_nil hNames (by simp)
  have hTrim :
      trimName (joined slash (front ++ [last])).reverse =
        slash :: (joined slash front).reverse := by
    rw [joined_append, joined_singleton, List.reverse_append,
      List.reverse_cons, List.append_assoc]
    exact trimName_append (by simpa using hLast.2.1)
  rw [render_of_ne_nil (by simp), List.dropLast_concat]
  unfold parentPath
  rw [if_pos hLong, hTrim]
  dsimp only
  by_cases hEmpty : front = []
  · subst hEmpty
    rfl
  · have hMore := joined_length_of_ne_nil hFront hEmpty
    rw [if_pos (by simp; omega), List.tail_cons,
      List.reverse_reverse, render_of_ne_nil hEmpty]

/- A component that fits changes the text as the stack. -/
theorem resolveComponent_render
    {outSize : Nat}
    {stack : List (List UInt8)}
    {name : List UInt8}
    (hStack : ∀ other ∈ stack, IsName other)
    (hFits :
      (joined slash (stack ++ [name])).length + 1 ≤ outSize) :
    resolveComponent outSize (render slash stack) name =
      some (render slash (pushName stack name)) := by
  unfold resolveComponent pushName
  by_cases hDot : name = [dot]
  · simp [hDot]
  by_cases hUp : name = [dot, dot]
  · rw [if_neg hDot, if_pos hUp, parentPath_render hStack,
      if_neg (by simp [hUp]), if_pos hUp]
  by_cases hEmpty : name = []
  · simp [hEmpty]
  have hPrefixed :
      (if (render slash stack).length > 1 then
          render slash stack ++ [slash]
        else render slash stack) ++ name =
        joined slash (stack ++ [name]) := by
    by_cases hStackEmpty : stack = []
    · subst hStackEmpty
      simp
    · have hLong := joined_length_of_ne_nil hStack hStackEmpty
      rw [render_of_ne_nil hStackEmpty, if_pos hLong]
      simp
  have hSkip : ¬ (name = [] ∨ name = [dot]) := by
    simp [hDot, hEmpty]
  have hStacked : stack ++ [name] ≠ [] := by simp
  rw [if_neg hDot, if_neg hUp, if_pos hEmpty, if_neg hSkip,
    if_neg hUp, render_of_ne_nil hStacked]
  simp only [← List.length_append, hPrefixed]
  rw [if_neg (by omega)]

end Syscall

end Whirliscope

------------------------------------------------------------
-- The Whole Path
------------------------------------------------------------

namespace Whirliscope

namespace Syscall

open FaultProgram Components
open Ext2 (slash skipSlashes)

/- What the resolver does at a component. -/
def resolveStep
    (outSize : Nat)
    (out name : List UInt8) :
    Option (List UInt8 ⊕ List UInt8) :=
  (resolveComponent outSize out name).map .inl

/- One pass of the resolver is one step of a walk. -/
theorem resolveVisit_eq
    (outSize : Nat)
    {cursor : List UInt8}
    (hFirst : cursor.takeWhile (· != slash) ≠ [])
    (out : List UInt8) :
    resolveVisit outSize (cursor, out) =
      (resolveStep outSize out
          (cursor.takeWhile (· != slash)) >>=
        Sum.elim
          (fun next =>
            pure (.inl
              ((cursor.dropWhile (· != slash)).dropWhile
                (· == slash), next)))
          fun result => pure (.inr result)) := by
  have hCursor : cursor.isEmpty = false := by
    cases cursor with
    | nil => exact absurd rfl hFirst
    | cons char rest => rfl
  have hTest :
      (fun char : UInt8 => decide (char ≠ slash)) =
        (· != slash) := by
    funext char
    simp [bne, beq_eq_decide]
  unfold resolveVisit resolveStep
  simp only [hCursor, hTest, skipSlashes, Bool.false_eq_true,
    if_false]
  cases resolveComponent outSize out
      (cursor.takeWhile (· != slash)) with
  | none => rfl
  | some next => rfl

theorem length_joined_pushName
    (stack : List (List UInt8))
    (name : List UInt8) :
    (joined slash (pushName stack name)).length ≤
      (joined slash (stack ++ [name])).length := by
  unfold pushName
  split_ifs
  · rw [joined_append, List.length_append]
    omega
  · have hDrop :=
      ((List.dropLast_sublist stack).flatMap
        (slash :: ·)).length_le
    rw [joined_append, List.length_append]
    exact Nat.le_trans hDrop (Nat.le_add_right _ _)
  · exact Nat.le_refl _

/- Components that fit are all pushed on the stack. -/
theorem walk_resolveStep
    {outSize : Nat}
    {names stack : List (List UInt8)}
    (hStack : ∀ other ∈ stack, IsName other)
    (hNames : ∀ name ∈ names, slash ∉ name)
    (hFits :
      (joined slash (stack ++ names)).length + 1 ≤ outSize) :
    walk (resolveStep outSize) names (render slash stack) =
      some (.inl
        (render slash (names.foldl pushName stack))) := by
  induction names generalizing stack with
  | nil => rfl
  | cons name names ih =>
      have hName := hNames name List.mem_cons_self
      have hSplit :
          joined slash (stack ++ name :: names) =
            joined slash (stack ++ [name]) ++
              joined slash names := by
        rw [← joined_append, List.append_assoc,
          List.singleton_append]
      rw [hSplit, List.length_append] at hFits
      have hPushed := length_joined_pushName stack name
      have hStep :
          resolveStep outSize (render slash stack) name =
            some (.inl
              (render slash (pushName stack name))) := by
        unfold resolveStep
        rw [resolveComponent_render hStack (by omega)]
        rfl
      rw [walk, hStep]
      exact ih (pushName_isName hStack hName)
        (fun other hOther =>
          hNames other (List.mem_cons_of_mem _ hOther))
        (by
          rw [joined_append, List.length_append]
          omega)

/- The names of an absolute path fit in its length. -/
theorem length_joined_of_head
    {chars : List UInt8}
    (hAbsolute : chars.head? = some slash) :
    (joined slash (components slash chars)).length ≤
      chars.length := by
  cases chars with
  | nil => cases hAbsolute
  | cons char rest =>
      have hChar : char = slash := by simpa using hAbsolute
      subst hChar
      rw [components_cons]
      exact length_joined_components slash rest

/- A path from the root is resolved to its stack of names. -/
theorem loop_resolveVisit
    {outSize : Nat}
    {chars : List UInt8}
    (hAbsolute : chars.head? = some slash)
    (hFits : chars.length + 1 ≤ outSize) :
    loop none (resolveVisit outSize) (chars.length + 1)
        (skipSlashes chars, [slash]) =
      some (render slash (resolveNames chars)) := by
  have hLoop :
      loop none (resolveVisit outSize) (chars.length + 1)
          (chars.dropWhile (· == slash), [slash]) =
        walk (resolveStep outSize) (components slash chars)
            [slash] >>=
          Sum.elim (fun last => pure last) pure :=
    loop_walk slash (resolveStep outSize) id (fun _ => rfl)
      (fun _ out hFirst => resolveVisit_eq outSize hFirst out)
      chars [slash] (Nat.lt_succ_self _)
  have hLength := length_joined_of_head hAbsolute
  have hWalk :
      walk (resolveStep outSize) (components slash chars)
          (render slash []) =
        some (.inl
          (render slash
            ((components slash chars).foldl pushName []))) :=
    walk_resolveStep
      (fun _ hNever => absurd hNever List.not_mem_nil)
      (fun _ hName => not_mem_of_mem_components hName)
      (by rw [List.nil_append]; omega)
  rw [render_nil] at hWalk
  unfold skipSlashes
  rw [hLoop, hWalk, resolveNames_eq]
  rfl

/- The path of a user, from the working directory on. -/
def joinPath
    (cwd path : List UInt8) : List UInt8 :=
  if path.head? = some slash then path
  else if cwd = [slash] then cwd ++ path
  else cwd ++ slash :: path

section

variable {cwd path : List UInt8}

theorem NormalPath.head
    (hNormal : NormalPath cwd) :
    cwd.head? = some slash := by
  rcases hNormal with ⟨names, _, rfl⟩
  cases names with
  | nil => rfl
  | cons name names =>
      rw [render_of_ne_nil (List.cons_ne_nil _ _)]
      rfl

/- Only the root ends with a slash. -/
theorem NormalPath.last
    (hNormal : NormalPath cwd)
    (hRoot : cwd ≠ [slash]) :
    1 < cwd.length ∧ cwd.getLast? ≠ some slash := by
  rcases hNormal with ⟨names, hNames, rfl⟩
  by_cases hEmpty : names = []
  · subst hEmpty
    exact absurd rfl hRoot
  rw [render_of_ne_nil hEmpty]
  refine ⟨joined_length_of_ne_nil hNames hEmpty, ?_⟩
  rcases List.eq_nil_or_concat names with hNil |
    ⟨front, last, hConcat⟩
  · exact absurd hNil hEmpty
  rw [List.concat_eq_append] at hConcat
  subst hConcat
  have hLast : IsName last := hNames last (by simp)
  rcases List.eq_nil_or_concat last with hNil |
    ⟨start, char, hEnd⟩
  · exact absurd hNil hLast.1
  rw [List.concat_eq_append] at hEnd
  subst hEnd
  rw [joined_append, joined_singleton, ← List.cons_append,
    ← List.append_assoc, List.getLast?_concat]
  intro hSlash
  injection hSlash with hChar
  exact hLast.2.1 (by simp [hChar])

/- Between its slashes a normal path has names only. -/
theorem NormalPath.pieces
    (hNormal : NormalPath cwd)
    (hRoot : cwd ≠ [slash]) :
    ∀ piece ∈ cwd.tail.splitOn slash, IsName piece := by
  rcases hNormal with ⟨names, hNames, rfl⟩
  by_cases hEmpty : names = []
  · subst hEmpty
    exact absurd rfl hRoot
  · rw [render_of_ne_nil hEmpty,
      splitOn_tail_joined hEmpty fun name hName =>
        (hNames name hName).2.1]
    exact hNames

/- What the resolver puts before the path. -/
theorem combinePath_eq
    (hNormal : NormalPath cwd)
    (hShort : path.length < userFsPathMax) :
    combinePath cwd path =
      if path.head? = some slash ∨
          (joinPath cwd path).length < userFsPathMax then
        some (joinPath cwd path)
      else
        none := by
  unfold combinePath joinPath
  by_cases hAbsolute : path.head? = some slash
  · rw [if_pos hAbsolute, if_pos (.inl hAbsolute),
      if_pos hAbsolute, List.take_of_length_le (by omega)]
  have hLength : (cwd ++ path).length =
      cwd.length + path.length := List.length_append
  by_cases hRoot : cwd = [slash]
  · subst hRoot
    have hNeeds :
        ¬ ([slash].length > 1 ∧
          [slash].getLast? ≠ some slash) := by
      simp
    simp only [hAbsolute, hNeeds, if_true, if_false,
      false_or, List.append_nil, List.length_nil]
    by_cases hFits : ([slash] ++ path).length < userFsPathMax
    · rw [if_pos hFits, if_neg (by omega)]
    · rw [if_neg hFits, if_pos (by omega)]
  · have hNeeds := hNormal.last hRoot
    have hSlashed :
        (cwd ++ slash :: path).length =
          cwd.length + 1 + path.length := by
      simp only [List.length_append, List.length_cons]
      omega
    simp only [hAbsolute, hNeeds, hRoot, if_true, if_false,
      false_or, gt_iff_lt, ne_eq, not_false_eq_true, and_self,
      List.length_singleton, List.append_assoc,
      List.singleton_append]
    by_cases hFits :
        (cwd ++ slash :: path).length < userFsPathMax
    · rw [if_pos hFits, if_neg (by omega)]
    · rw [if_neg hFits, if_pos (by omega)]

/- The loop states of the resolver: what is left of the path,
and the text in the result buffer. -/
inductive Resolving
    (outSize : Nat)
    (start : List UInt8 × List UInt8) :
    List UInt8 × List UInt8 → Prop
| start : Resolving outSize start start
| next
    {state after : List UInt8 × List UInt8}
    (hBefore : Resolving outSize start state)
    (hVisit :
      resolveVisit outSize state = some (.inl after)) :
    Resolving outSize start after

theorem length_trimName
    (chars : List UInt8) :
    (trimName chars).length ≤ chars.length := by
  induction chars with
  | nil => exact Nat.le_refl _
  | cons char rest ih =>
      cases rest with
      | nil => exact Nat.le_refl _
      | cons next rest =>
          rw [trimName]
          split_ifs
          · exact Nat.le_refl _
          · exact Nat.le_succ_of_le ih

theorem length_parentPath
    (out : List UInt8) :
    (parentPath out).length ≤ out.length := by
  have hTrim := length_trimName out.reverse
  rw [List.length_reverse] at hTrim
  unfold parentPath
  dsimp only
  split_ifs
  · rw [List.length_reverse, List.length_tail]
    omega
  · rw [List.length_reverse]
    exact hTrim
  · exact Nat.le_refl _

/- A component leaves a text that fits in the buffer. -/
theorem resolveComponent_fits
    {outSize : Nat}
    {out name after : List UInt8}
    (hOut : out.length < outSize)
    (hResolve :
      resolveComponent outSize out name = some after) :
    after.length < outSize := by
  unfold resolveComponent at hResolve
  dsimp only at hResolve
  split_ifs at hResolve with hDot hUp hName hLong
  · cases hResolve
    exact hOut
  · cases hResolve
    exact Nat.lt_of_le_of_lt (length_parentPath out) hOut
  · cases hResolve
    rw [List.length_append]
    omega
  · cases hResolve
    rw [List.length_append]
    omega
  · cases hResolve
    exact hOut

theorem Resolving.fits
    {outSize : Nat}
    {start state : List UInt8 × List UInt8}
    (hStart : start.2.length < outSize)
    (hState : Resolving outSize start state) :
    state.2.length < outSize := by
  induction hState with
  | start => exact hStart
  | next hBefore hVisit ih =>
      unfold resolveVisit at hVisit
      dsimp only at hVisit
      split_ifs at hVisit
      · cases hVisit
      · rw [Option.bind_eq_bind, Option.bind_eq_some_iff]
          at hVisit
        rcases hVisit with ⟨out, hResolve, hAfter⟩
        cases hAfter
        exact resolveComponent_fits ih hResolve

theorem joinPath_head
    (hNormal : NormalPath cwd) :
    (joinPath cwd path).head? = some slash := by
  have hHead := hNormal.head
  unfold joinPath
  split_ifs with hAbsolute hRoot
  · exact hAbsolute
  · rw [List.head?_append, hHead, Option.some_or]
  · rw [List.head?_append, hHead, Option.some_or]

theorem length_joinPath
    (hShort : path.length < userFsPathMax)
    (hFits :
      path.head? = some slash ∨
        (joinPath cwd path).length < userFsPathMax) :
    (joinPath cwd path).length < userFsPathMax := by
  rcases hFits with hAbsolute | hFits
  · rw [joinPath, if_pos hAbsolute]
    exact hShort
  · exact hFits

theorem mem_joinPath
    {char : UInt8}
    (hChar : char ∈ joinPath cwd path) :
    char = slash ∨ char ∈ cwd ∨ char ∈ path := by
  unfold joinPath at hChar
  split_ifs at hChar
  · exact .inr (.inr hChar)
  · exact .inr (List.mem_append.mp hChar)
  · rcases List.mem_append.mp hChar with hCwd | hRest
    · exact .inr (.inl hCwd)
    · exact (List.mem_cons.mp hRest).imp_right .inr

/- What `resolve_path_for_current` returns. -/
theorem resolvePathForCurrent_eq
    (hNormal : NormalPath cwd)
    (hPath : path ≠ [])
    (hShort : path.length < userFsPathMax) :
    resolvePathForCurrent cwd path userFsPathMax =
      if path.head? = some slash ∨
          (joinPath cwd path).length < userFsPathMax then
        some (render slash (resolveNames (joinPath cwd path)))
      else
        none := by
  have hFull : path.isEmpty = false := by
    simpa using hPath
  have hTwo : ¬ userFsPathMax < 2 := by decide
  unfold resolvePathForCurrent
  rw [combinePath_eq hNormal hShort]
  simp only [hFull, Bool.false_eq_true, if_false]
  by_cases hFits :
      path.head? = some slash ∨
        (joinPath cwd path).length < userFsPathMax
  · have hLength := length_joinPath hShort hFits
    rw [if_pos hFits, if_pos hFits]
    simp only [hTwo, if_false]
    exact loop_resolveVisit (joinPath_head hNormal) hLength
  · rw [if_neg hFits, if_neg hFits]

theorem length_foldl_pushName
    (names stack : List (List UInt8)) :
    (joined slash (names.foldl pushName stack)).length ≤
      (joined slash (stack ++ names)).length := by
  induction names generalizing stack with
  | nil =>
      rw [List.append_nil]
      exact Nat.le_refl _
  | cons name names ih =>
      have hPushed := length_joined_pushName stack name
      have hRest := ih (pushName stack name)
      rw [List.append_cons, joined_append, List.length_append]
      rw [joined_append, List.length_append] at hRest
      rw [List.foldl_cons]
      omega

/- A resolved path is no longer than the path it is from. -/
theorem length_resolved
    {chars : List UInt8}
    (hAbsolute : chars.head? = some slash) :
    (render slash (resolveNames chars)).length ≤
      chars.length := by
  have hStack :=
    length_foldl_pushName (components slash chars) []
  have hNames := length_joined_of_head hAbsolute
  have hPos : 0 < chars.length := by
    cases chars with
    | nil => cases hAbsolute
    | cons char rest => exact Nat.succ_pos _
  rw [List.nil_append] at hStack
  rw [length_render, resolveNames_eq]
  omega

theorem normalPath_resolved
    (chars : List UInt8) :
    NormalPath (render slash (resolveNames chars)) :=
  ⟨_, resolveNames_isName chars, rfl⟩

/- Resolving brings no new characters but slashes. -/
theorem mem_resolved
    {chars : List UInt8}
    {char : UInt8}
    (hChar : char ∈ render slash (resolveNames chars)) :
    char = slash ∨ char ∈ chars := by
  have hPieces :
      ∀ names stack : List (List UInt8),
        ∀ name ∈ names.foldl pushName stack,
          name ∈ stack ∨ name ∈ names := by
    intro names
    induction names with
    | nil => exact fun _ _ hName => .inl hName
    | cons first names ih =>
        intro stack name hName
        rcases ih _ name hName with hStack | hLater
        · unfold pushName at hStack
          split_ifs at hStack
          · exact .inl hStack
          · exact .inl
              ((List.dropLast_sublist _).subset hStack)
          · rcases List.mem_append.mp hStack with hOld | hNew
            · exact .inl hOld
            · rw [List.mem_singleton] at hNew
              exact .inr (hNew ▸ List.mem_cons_self)
        · exact .inr (List.mem_cons_of_mem _ hLater)
  have hJoined :
      char ∈ joined slash (chars.splitOn slash) →
        char = slash ∨ char ∈ chars := by
    rw [joined_splitOn]
    exact fun hMem => List.mem_cons.mp hMem
  by_cases hEmpty : resolveNames chars = []
  · rw [hEmpty, render_nil, List.mem_singleton] at hChar
    exact .inl hChar
  rw [render_of_ne_nil hEmpty, joined, List.mem_flatMap]
    at hChar
  rcases hChar with ⟨name, hName, hMem⟩
  rcases hPieces _ _ name hName with hNever | hPiece
  · exact absurd hNever List.not_mem_nil
  · exact hJoined (List.mem_flatMap.mpr ⟨name, hPiece, hMem⟩)

/-
  The resolution of a path: when it succeeds, what its result
  is, the form of the result, and that both buffers hold
  their text with its NUL throughout.
-/
structure Resolves
    (cwd path : List UInt8) : Prop where
  succeeds :
    (∃ out,
      resolvePathForCurrent cwd path userFsPathMax =
        some out) ↔
      path.head? = some slash ∨
        (joinPath cwd path).length ≤ 127
  result :
    ∀ out,
      resolvePathForCurrent cwd path userFsPathMax =
          some out →
        out =
          render slash (resolveNames (joinPath cwd path))
  form :
    ∀ out,
      resolvePathForCurrent cwd path userFsPathMax =
          some out →
        out.head? = some slash ∧
          (out = [slash] ∨
            out.getLast? ≠ some slash ∧
              ∀ piece ∈ out.tail.splitOn slash,
                IsName piece)
  buffers :
    ∀ combined,
      combinePath cwd path = some combined →
        combined.length + 1 ≤ userFsPathMax ∧
          ∀ state,
            Resolving userFsPathMax
                (skipSlashes combined, [slash]) state →
              state.2.length + 1 ≤ userFsPathMax

theorem NormalPath.resolves
    (hNormal : NormalPath cwd)
    (hPath : path ≠ [])
    (hShort : path.length ≤ 127) :
    Resolves cwd path := by
  have hRoom : path.length < userFsPathMax :=
    Nat.lt_succ_of_le hShort
  have hResolve :=
    resolvePathForCurrent_eq hNormal hPath hRoom
  have hResult :
      ∀ out,
        resolvePathForCurrent cwd path userFsPathMax =
            some out →
          out =
            render slash (resolveNames (joinPath cwd path)) := by
    intro out hOut
    rw [hResolve] at hOut
    split_ifs at hOut
    exact (Option.some.inj hOut).symm
  refine ⟨?_, hResult, ?_, ?_⟩
  · rw [hResolve]
    split_ifs with hFits
    · exact ⟨fun _ => hFits.imp_right Nat.le_of_lt_succ,
        fun _ => ⟨_, rfl⟩⟩
    · constructor
      · rintro ⟨out, hNever⟩
        cases hNever
      · exact fun hHolds =>
          absurd (hHolds.imp_right Nat.lt_succ_of_le) hFits
  · intro out hOut
    have hOutNormal : NormalPath out := by
      rw [hResult out hOut]
      exact normalPath_resolved _
    refine ⟨hOutNormal.head, ?_⟩
    by_cases hRoot : out = [slash]
    · exact .inl hRoot
    · exact .inr ⟨(hOutNormal.last hRoot).2,
        hOutNormal.pieces hRoot⟩
  · intro combined hCombined
    rw [combinePath_eq hNormal hRoom] at hCombined
    split_ifs at hCombined with hFits
    cases hCombined
    refine ⟨length_joinPath hRoom hFits, ?_⟩
    have hStart : [slash].length < userFsPathMax := by decide
    exact fun state hState => hState.fits hStart

end

end Syscall

end Whirliscope
