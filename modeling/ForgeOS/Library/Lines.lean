import Mathlib.Data.List.Basic

/-!
Text split into lines. A line is complete with its terminator; what follows
the last terminator is no line yet.
-/

namespace Library

section Lines

variable {α : Type} (ends : α → Bool)

/-- The first complete line, with what follows it. -/
def takeLine : List α → Option (List α × List α)
  | [] => none
  | x :: rest =>
      if ends x then some ([x], rest)
      else (takeLine rest).map fun split => (x :: split.1, split.2)

/-- The complete lines of a text, its first line continuing `partialLine`. -/
def linesFrom (partialLine : List α) : List α → List (List α)
  | [] => []
  | x :: rest =>
      if ends x then (partialLine ++ [x]) :: linesFrom [] rest
      else linesFrom (partialLine ++ [x]) rest

def completeLines (text : List α) : List (List α) := linesFrom ends [] text

variable {ends}

theorem linesFrom_of_takeLine {text line rest : List α}
    (h : takeLine ends text = some (line, rest)) (partialLine : List α) :
    linesFrom ends partialLine text = (partialLine ++ line) :: completeLines ends rest := by
  induction text generalizing line partialLine with
  | nil => cases h
  | cons x xs ih =>
      unfold takeLine at h
      unfold linesFrom
      split at h
      · rename_i hends
        obtain ⟨rfl, rfl⟩ := Prod.mk.inj (Option.some.inj h)
        rw [if_pos hends]
        rfl
      · rename_i hends
        obtain ⟨⟨first, after⟩, hsplit, hpair⟩ := Option.map_eq_some_iff.mp h
        obtain ⟨rfl, rfl⟩ := Prod.mk.inj hpair
        rw [if_neg hends, ih hsplit, List.append_assoc]
        rfl

theorem linesFrom_of_takeLine_none {text : List α} (h : takeLine ends text = none)
    (partialLine : List α) : linesFrom ends partialLine text = [] := by
  induction text generalizing partialLine with
  | nil => rfl
  | cons x xs ih =>
      unfold takeLine at h
      unfold linesFrom
      split at h
      · cases h
      · rename_i hends
        rw [if_neg hends, ih (Option.map_eq_none_iff.mp h)]

theorem completeLines_of_takeLine {text line rest : List α}
    (h : takeLine ends text = some (line, rest)) :
    completeLines ends text = line :: completeLines ends rest :=
  linesFrom_of_takeLine h []

theorem completeLines_of_takeLine_none {text : List α} (h : takeLine ends text = none) :
    completeLines ends text = [] :=
  linesFrom_of_takeLine_none h []

/-- What follows a complete line does not change it. -/
theorem takeLine_append {text line rest : List α} (h : takeLine ends text = some (line, rest))
    (more : List α) : takeLine ends (text ++ more) = some (line, rest ++ more) := by
  induction text generalizing line with
  | nil => cases h
  | cons x xs ih =>
      rw [List.cons_append]
      unfold takeLine at h ⊢
      split at h
      · rename_i hends
        obtain ⟨rfl, rfl⟩ := Prod.mk.inj (Option.some.inj h)
        rw [if_pos hends]
      · rename_i hends
        obtain ⟨⟨first, after⟩, hsplit, hpair⟩ := Option.map_eq_some_iff.mp h
        obtain ⟨rfl, rfl⟩ := Prod.mk.inj hpair
        rw [if_neg hends, ih hsplit]
        rfl

/-- A text is its first complete line and what follows it, and that line is
complete by itself. -/
theorem takeLine_spec {text line rest : List α} (h : takeLine ends text = some (line, rest)) :
    text = line ++ rest ∧ takeLine ends line = some (line, []) := by
  induction text generalizing line with
  | nil => cases h
  | cons x xs ih =>
      unfold takeLine at h
      split at h
      · rename_i hends
        obtain ⟨rfl, rfl⟩ := Prod.mk.inj (Option.some.inj h)
        simp [takeLine, hends]
      · rename_i hends
        obtain ⟨⟨first, after⟩, hsplit, hpair⟩ := Option.map_eq_some_iff.mp h
        obtain ⟨rfl, rfl⟩ := Prod.mk.inj hpair
        obtain ⟨htext, hline⟩ := ih hsplit
        refine ⟨by rw [htext, List.cons_append], ?_⟩
        simp [takeLine, hends, hline]

/-- Complete lines in front of a text are the first of its lines. -/
theorem completeLines_flatten_append {lines : List (List α)}
    (h : ∀ line ∈ lines, takeLine ends line = some (line, [])) (rest : List α) :
    completeLines ends (lines.flatten ++ rest) = lines ++ completeLines ends rest := by
  induction lines with
  | nil => rfl
  | cons line others ih =>
      have hline := takeLine_append (h line (by simp)) (others.flatten ++ rest)
      rw [List.flatten_cons, List.append_assoc, completeLines_of_takeLine hline, List.nil_append,
        ih fun other hother => h other (by simp [hother]), List.cons_append]

end Lines

end Library
