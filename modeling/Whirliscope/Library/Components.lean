import Mathlib.Data.List.Basic
import Mathlib.Data.List.Flatten
import Whirliscope.Library.FaultProgram

/-
  Texts as components between separators, and walks over the
  components.

  Empty components do not count: separators may repeat, and
  may stand at either end of the text.

  Main declarations:
    * `components`, `render`
    * `components_append`, `components_render`
    * `walk`, `loop_walk`
-/

------------------------------------------------------------
-- Components
------------------------------------------------------------

namespace Components

variable {α : Type} [DecidableEq α]

/- The components of a text. -/
def components
    (sep : α)
    (text : List α) : List (List α) :=
  (text.splitOn sep).filter (· ≠ [])

@[simp] theorem components_nil
    (sep : α) :
    components sep [] = [] :=
  rfl

@[simp] theorem components_append
    (sep : α)
    (first second : List α) :
    components sep (first ++ sep :: second) =
      components sep first ++ components sep second := by
  unfold components
  rw [List.splitOn_append_cons_self, List.filter_append]

@[simp] theorem components_cons
    (sep : α)
    (text : List α) :
    components sep (sep :: text) = components sep text :=
  components_append sep [] text

theorem components_of_not_mem
    {sep : α}
    {name : List α}
    (hSep : sep ∉ name)
    (hName : name ≠ []) :
    components sep name = [name] := by
  unfold components
  rw [List.splitOn_eq_singleton hSep]
  simp [hName]

@[simp] theorem components_replicate
    (sep : α)
    (count : Nat) :
    components sep (List.replicate count sep) = [] := by
  induction count with
  | zero => rfl
  | succ count ih =>
      rw [List.replicate_succ, components_cons, ih]

/- Separators in front do not change the components. -/
@[simp] theorem components_dropWhile
    (sep : α)
    (text : List α) :
    components sep (text.dropWhile (· == sep)) =
      components sep text := by
  induction text with
  | nil => rfl
  | cons char text ih =>
      by_cases hChar : char = sep
      · subst hChar
        rw [components_cons, ← ih]
        simp
      · rw [List.dropWhile_cons_of_neg (by simpa using hChar)]

theorem not_mem_takeWhile
    (sep : α)
    (text : List α) :
    sep ∉ text.takeWhile (· != sep) := by
  intro hMem
  have hAll := List.all_takeWhile (l := text)
    (p := (· != sep))
  simpa using List.all_eq_true.mp hAll sep hMem

/- What is left after the first component is empty or starts
with a separator. -/
theorem dropWhile_eq
    (sep : α)
    (text : List α) :
    text.dropWhile (· != sep) = [] ∨
      ∃ rest, text.dropWhile (· != sep) = sep :: rest := by
  cases hRest : text.dropWhile (· != sep) with
  | nil => exact Or.inl rfl
  | cons char rest =>
      have hHead := List.head_dropWhile_not (· != sep)
        (l := text) (by rw [hRest]; exact List.cons_ne_nil _ _)
      have hChar : char = sep := by
        simpa [hRest] using hHead
      exact Or.inr ⟨rest, by rw [hChar]⟩

/- The first component and those after it. -/
theorem components_takeWhile
    {sep : α}
    {text : List α}
    (hFirst : text.takeWhile (· != sep) ≠ []) :
    components sep text =
      text.takeWhile (· != sep) ::
        components sep (text.dropWhile (· != sep)) := by
  have hSplit :=
    List.takeWhile_append_dropWhile (p := (· != sep))
      (l := text)
  have hSep := not_mem_takeWhile sep text
  rcases dropWhile_eq sep text with hRest | ⟨rest, hRest⟩
  · rw [hRest, List.append_nil] at hSplit
    rw [hRest, hSplit, components_nil]
    exact components_of_not_mem (hSplit ▸ hSep)
      (hSplit ▸ hFirst)
  · rw [hRest] at hSplit ⊢
    rw [components_cons]
    nth_rewrite 1 [← hSplit]
    rw [components_append,
      components_of_not_mem hSep hFirst]
    rfl

theorem ne_nil_of_mem_components
    {sep : α}
    {text name : List α}
    (hName : name ∈ components sep text) :
    name ≠ [] := by
  simpa using (List.mem_filter.mp hName).2

theorem not_mem_of_mem_splitOn
    {sep : α}
    {text name : List α}
    (hName : name ∈ text.splitOn sep) :
    sep ∉ name := by
  induction text generalizing name with
  | nil =>
      rw [List.splitOn_nil, List.mem_singleton] at hName
      subst hName
      exact List.not_mem_nil
  | cons char text ih =>
      rw [List.splitOn_cons_eq_if_modifyHead] at hName
      split at hName
      · rcases List.mem_cons.mp hName with hHere | hLater
        · subst hHere
          exact List.not_mem_nil
        · exact ih hLater
      · rename_i hChar
        cases hParts : text.splitOn sep with
        | nil => exact absurd hParts (List.splitOn_ne_nil _ _)
        | cons first parts =>
            rw [hParts, List.modifyHead_cons] at hName
            rcases List.mem_cons.mp hName with hHere | hLater
            · have hFirst : sep ∉ first :=
                ih (by rw [hParts]; exact List.mem_cons_self)
              subst hHere
              simp only [List.mem_cons, not_or]
              exact ⟨fun hSame => hChar (by simp [hSame]),
                hFirst⟩
            · exact ih (by
                rw [hParts]
                exact List.mem_cons_of_mem _ hLater)

theorem not_mem_of_mem_components
    {sep : α}
    {text name : List α}
    (hName : name ∈ components sep text) :
    sep ∉ name :=
  not_mem_of_mem_splitOn (List.mem_filter.mp hName).1

end Components

------------------------------------------------------------
-- Rendering
------------------------------------------------------------

namespace Components

variable {α : Type} [DecidableEq α]

/- Each component after a separator. -/
def joined
    (sep : α)
    (parts : List (List α)) : List α :=
  parts.flatMap (sep :: ·)

/- The text of components; that of none is a separator. -/
def render
    (sep : α)
    (parts : List (List α)) : List α :=
  if parts = [] then [sep] else joined sep parts

@[simp] theorem render_nil
    (sep : α) :
    render sep [] = [sep] :=
  rfl

theorem render_of_ne_nil
    {sep : α}
    {parts : List (List α)}
    (hParts : parts ≠ []) :
    render sep parts = joined sep parts :=
  if_neg hParts

@[simp] theorem joined_append
    (sep : α)
    (first second : List (List α)) :
    joined sep (first ++ second) =
      joined sep first ++ joined sep second :=
  List.flatMap_append

@[simp] theorem joined_singleton
    (sep : α)
    (name : List α) :
    joined sep [name] = sep :: name := by
  simp [joined]

/- A text is its pieces, each after a separator. -/
theorem joined_splitOn
    (sep : α)
    (text : List α) :
    joined sep (text.splitOn sep) = sep :: text := by
  induction text with
  | nil => rfl
  | cons char text ih =>
      rw [List.splitOn_cons_eq_if_modifyHead]
      by_cases hChar : char = sep
      · rw [if_pos (by simpa using hChar), hChar, ← ih]
        rfl
      · rw [if_neg (by simpa using hChar)]
        cases hParts : text.splitOn sep with
        | nil => exact absurd hParts (List.splitOn_ne_nil _ _)
        | cons first parts =>
            rw [hParts] at ih
            have hTail : first ++ joined sep parts = text := by
              simpa [joined] using ih
            simp [joined, ← hTail]

/- What follows the first separator splits into the parts. -/
theorem splitOn_tail_joined
    {sep : α}
    {parts : List (List α)}
    (hParts : parts ≠ [])
    (hSep : ∀ name ∈ parts, sep ∉ name) :
    (joined sep parts).tail.splitOn sep = parts := by
  induction parts with
  | nil => exact absurd rfl hParts
  | cons name parts ih =>
      have hName := hSep name List.mem_cons_self
      cases parts with
      | nil =>
          rw [joined_singleton, List.tail_cons,
            List.splitOn_eq_singleton hName]
      | cons second parts =>
          have hRest := ih (List.cons_ne_nil _ _)
            fun other hOther =>
              hSep other (List.mem_cons_of_mem _ hOther)
          have hShape :
              (joined sep (name :: second :: parts)).tail =
                name ++
                  sep :: (joined sep (second :: parts)).tail := by
            simp [joined]
          rw [hShape,
            List.splitOn_append_cons_self_of_not_mem hName,
            hRest]

/- The components and their separators fit in the text. -/
theorem length_joined_components
    (sep : α)
    (text : List α) :
    (joined sep (components sep text)).length ≤
      text.length + 1 := by
  have hSublist :
      (joined sep (components sep text)).Sublist
        (joined sep (text.splitOn sep)) :=
    List.filter_sublist.flatMap (sep :: ·)
  rw [joined_splitOn] at hSublist
  exact hSublist.length_le

/- A rendered list has the components it was made of. -/
theorem components_joined
    {sep : α}
    {parts : List (List α)}
    (hParts : ∀ name ∈ parts, name ≠ [] ∧ sep ∉ name) :
    components sep (joined sep parts) = parts := by
  induction parts with
  | nil => rfl
  | cons name parts ih =>
      have hName := hParts name List.mem_cons_self
      have hRest := ih fun other hOther =>
        hParts other (List.mem_cons_of_mem _ hOther)
      have hHere := components_of_not_mem hName.2 hName.1
      cases parts with
      | nil => simpa using hHere
      | cons second parts =>
          have hShape :
              joined sep (name :: second :: parts) =
                sep :: (name ++
                  sep :: (second ++ joined sep parts)) := by
            simp [joined]
          have hTail :
              joined sep (second :: parts) =
                sep :: (second ++ joined sep parts) := by
            simp [joined]
          rw [hTail, components_cons] at hRest
          rw [hShape, components_cons, components_append,
            hHere, hRest, List.singleton_append]

theorem components_render
    {sep : α}
    {parts : List (List α)}
    (hParts : ∀ name ∈ parts, name ≠ [] ∧ sep ∉ name) :
    components sep (render sep parts) = parts := by
  by_cases hNil : parts = []
  · subst hNil
    rw [render_nil, components_cons, components_nil]
  · rw [render_of_ne_nil hNil, components_joined hParts]

end Components

------------------------------------------------------------
-- Walks
------------------------------------------------------------

namespace Components

open FaultProgram

variable {α β γ ι : Type} [DecidableEq α]
variable {m : Type → Type} [Monad m]

/-
  Visit the items of a list one after the other. A visit goes
  on with a new accumulator or ends the walk.
-/
def walk
    (visit : β → ι → m (β ⊕ γ)) :
    List ι → β → m (β ⊕ γ)
| [], accumulator => pure (.inl accumulator)
| item :: items, accumulator =>
    visit accumulator item >>=
      Sum.elim (walk visit items) fun result =>
        pure (.inr result)

variable [LawfulMonad m]

theorem walk_append
    (visit : β → ι → m (β ⊕ γ))
    (first second : List ι)
    (accumulator : β) :
    walk visit (first ++ second) accumulator =
      walk visit first accumulator >>=
        Sum.elim (walk visit second) fun result =>
          pure (.inr result) := by
  induction first generalizing accumulator with
  | nil => simp [walk]
  | cons item first ih =>
      rw [List.cons_append, walk, walk, bind_assoc]
      congr 1
      funext step
      cases step with
      | inl next => exact ih next
      | inr result => simp

/-
  A loop over a cursor, one component at a time, is a walk
  over the components of the text.
-/
theorem loop_walk
    (sep : α)
    {out : m γ}
    {body : List α × β → m ((List α × β) ⊕ γ)}
    (visit : β → List α → m (β ⊕ γ))
    (finish : β → γ)
    (hEnd :
      ∀ accumulator,
        body ([], accumulator) =
          pure (.inr (finish accumulator)))
    (hVisit :
      ∀ cursor accumulator,
        cursor.takeWhile (· != sep) ≠ [] →
          body (cursor, accumulator) =
            visit accumulator
                (cursor.takeWhile (· != sep)) >>=
              Sum.elim
                (fun next =>
                  pure (.inl
                    ((cursor.dropWhile
                      (· != sep)).dropWhile (· == sep),
                      next)))
                fun result => pure (.inr result))
    {fuel : Nat}
    (text : List α)
    (accumulator : β)
    (hFuel : text.length < fuel) :
    loop out body fuel
        (text.dropWhile (· == sep), accumulator) =
      walk visit (components sep text) accumulator >>=
        Sum.elim (fun last => pure (finish last)) pure := by
  induction fuel generalizing text accumulator with
  | zero => exact absurd hFuel (Nat.not_lt_zero _)
  | succ fuel ih =>
      rw [loop, ← components_dropWhile]
      have hLength :
          (text.dropWhile (· == sep)).length ≤ text.length :=
        (List.dropWhile_sublist _).length_le
      cases hCursor : text.dropWhile (· == sep) with
      | nil => simp [hEnd, walk]
      | cons char rest =>
          have hChar : char ≠ sep := by
            have hHead := List.head_dropWhile_not (· == sep)
              (l := text)
              (by rw [hCursor]; exact List.cons_ne_nil _ _)
            simpa [hCursor] using hHead
          have hFirst :
              (char :: rest).takeWhile (· != sep) ≠ [] := by
            simp [hChar]
          have hShorter :
              ((char :: rest).dropWhile (· != sep)).length <
                fuel := by
            have hRest :=
              (List.dropWhile_sublist (· != sep)
                (l := rest)).length_le
            rw [List.dropWhile_cons_of_pos
              (by simpa using hChar)]
            rw [hCursor, List.length_cons] at hLength
            omega
          rw [hVisit _ _ hFirst, components_takeWhile hFirst,
            walk, bind_assoc, bind_assoc]
          congr 1
          funext step
          cases step with
          | inl next =>
              rw [Sum.elim_inl, Sum.elim_inl, pure_bind]
              exact ih _ next hShorter
          | inr result => simp

end Components
