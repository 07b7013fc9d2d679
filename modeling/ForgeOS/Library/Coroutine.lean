import Mathlib.Data.List.Basic

/-!
Coroutines: computations that act, yield values to a caller, and go on with
what the caller sends back. A coroutine is a tree of such steps. Run under a
caller it leaves a trace of what it did, what it yielded and what it was sent.
The file gives the rules for the actions in a trace, and for items of a list
that stand directly behind what justifies them.
-/

namespace Library

/-- A coroutine with actions `ω`, which yields `α`, is resumed with `β` and
may raise an `ε`. One that waits is never seen again. -/
inductive Coroutine (ω ε α β : Type) where
  | done
  | raise (error : ε)
  | wait
  | act (action : ω) (next : Coroutine ω ε α β)
  | yield (value : α) (resume : β → Coroutine ω ε α β)

/-- One entry of a trace. -/
inductive Observation (ω α β : Type) where
  | acted (action : ω)
  | yielded (value : α)
  | sent (answer : β)

/-- What a caller answers to a value, having been yielded others before; `none`
when it does not resume the coroutine. -/
abbrev Caller (α β : Type) := List α → α → Option β

section Follows

variable {τ : Type}

/-- Every item of a list directly follows a stretch of it that justifies it. -/
def Follows (justifies : List τ → τ → Prop) (items : List τ) : Prop :=
  ∀ before item after, items = before ++ item :: after →
    ∃ earlier stretch, before = earlier ++ stretch ∧ justifies stretch item

variable {justifies : List τ → τ → Prop}

theorem follows_nil : Follows justifies [] := by
  intro before item after h
  cases before <;> cases h

theorem follows_append {xs ys : List τ} (hxs : Follows justifies xs)
    (hys : Follows justifies ys) : Follows justifies (xs ++ ys) := by
  intro before item after h
  rcases List.append_eq_append_iff.mp h with ⟨middle, rfl, hsplit⟩ | ⟨middle, hsplit, hys'⟩
  · obtain ⟨earlier, stretch, rfl, hitem⟩ := hys middle item after hsplit
    exact ⟨xs ++ earlier, stretch, (List.append_assoc ..).symm, hitem⟩
  · cases middle with
    | nil =>
        obtain ⟨earlier, stretch, hnil, hitem⟩ := hys [] item after hys'.symm
        obtain ⟨rfl, rfl⟩ := List.append_eq_nil_iff.mp hnil.symm
        exact ⟨before, [], (List.append_nil _).symm, hitem⟩
    | cons head middle =>
        obtain ⟨rfl, -⟩ := List.cons.inj hys'
        exact hxs before item middle hsplit

/-- An item justified by nothing in front of it. -/
theorem follows_cons {item : τ} {rest : List τ} (hitem : justifies [] item)
    (hrest : Follows justifies rest) : Follows justifies (item :: rest) := by
  have hsingle : Follows justifies [item] := by
    intro before other after h
    cases before with
    | nil =>
        obtain ⟨rfl, -⟩ := List.cons.inj h
        exact ⟨[], [], rfl, hitem⟩
    | cons first before => simp at h
  exact follows_append hsingle hrest

/-- An item justified by all of the list in front of it. -/
theorem follows_snoc {items : List τ} {item : τ} (hitems : Follows justifies items)
    (hitem : justifies items item) : Follows justifies (items ++ [item]) := by
  intro before other after h
  rcases List.append_eq_append_iff.mp h with ⟨middle, rfl, hsplit⟩ | ⟨middle, hsplit, hlast⟩
  · cases middle with
    | nil =>
        obtain ⟨rfl, -⟩ := List.cons.inj hsplit
        exact ⟨[], items, by simp, hitem⟩
    | cons first middle => simp at hsplit
  · cases middle with
    | nil =>
        obtain ⟨rfl, -⟩ := List.cons.inj hlast
        exact ⟨[], items, by simpa using hsplit.symm, hitem⟩
    | cons first middle =>
        obtain ⟨rfl, -⟩ := List.cons.inj hlast
        exact hitems before other middle hsplit

end Follows

namespace Coroutine

variable {ω ε α β : Type}

def trace (caller : Caller α β) (seen : List α) :
    Coroutine ω ε α β → List (Observation ω α β)
  | .done | .raise _ | .wait => []
  | .act action next => .acted action :: trace caller seen next
  | .yield value resume =>
      .yielded value ::
        match caller seen value with
        | some answer => .sent answer :: trace caller (seen ++ [value]) (resume answer)
        | none => []

def yields (caller : Caller α β) (seen : List α) : Coroutine ω ε α β → List α
  | .done | .raise _ | .wait => []
  | .act _ next => yields caller seen next
  | .yield value resume =>
      value ::
        match caller seen value with
        | some answer => yields caller (seen ++ [value]) (resume answer)
        | none => []

/-- How it ends; it has no end when it waits or is left alone. -/
def outcome (caller : Caller α β) (seen : List α) : Coroutine ω ε α β → Option (Except ε Unit)
  | .done => some (.ok ())
  | .raise error => some (.error error)
  | .wait => none
  | .act _ next => outcome caller seen next
  | .yield value resume =>
      match caller seen value with
      | some answer => outcome caller (seen ++ [value]) (resume answer)
      | none => none

/-- Do all of some actions before going on. -/
def actAll (next : Coroutine ω ε α β) : List ω → Coroutine ω ε α β
  | [] => next
  | action :: rest => .act action (actAll next rest)

/-- Yield all of some values before going on, unless an answer stops it. -/
def yieldAll (stops : β → Option (Coroutine ω ε α β)) (next : Coroutine ω ε α β) :
    List α → Coroutine ω ε α β
  | [] => next
  | value :: rest =>
      .yield value fun answer =>
        match stops answer with
        | some stopped => stopped
        | none => yieldAll stops next rest

section Trace

variable {caller : Caller α β} {seen : List α}

@[simp]
theorem trace_done : trace caller seen (.done : Coroutine ω ε α β) = [] := rfl

@[simp]
theorem trace_raise (error : ε) : trace caller seen (.raise error : Coroutine ω ε α β) = [] := rfl

@[simp]
theorem trace_wait : trace caller seen (.wait : Coroutine ω ε α β) = [] := rfl

@[simp]
theorem trace_act (action : ω) (next : Coroutine ω ε α β) :
    trace caller seen (.act action next) = .acted action :: trace caller seen next := rfl

/-- A value the caller does not answer ends the trace. -/
theorem trace_yield_none {value : α} (resume : β → Coroutine ω ε α β)
    (h : caller seen value = none) :
    trace caller seen (.yield value resume) = [.yielded value] := by
  simp only [trace, h]

theorem trace_yield_some {value : α} {answer : β} (resume : β → Coroutine ω ε α β)
    (h : caller seen value = some answer) :
    trace caller seen (.yield value resume) =
      .yielded value :: .sent answer :: trace caller (seen ++ [value]) (resume answer) := by
  simp only [trace, h]

theorem trace_actAll (next : Coroutine ω ε α β) (actions : List ω) :
    trace caller seen (actAll next actions) =
      actions.map .acted ++ trace caller seen next := by
  induction actions with
  | nil => rfl
  | cons action rest ih => simp only [actAll, trace_act, ih, List.map_cons, List.cons_append]

/-- The actions of a trace behind a yield come after an answer. -/
theorem acted_of_yield {value : α} {resume : β → Coroutine ω ε α β} {action : ω}
    (h : .acted action ∈ trace caller seen (.yield value resume)) :
    ∃ answer, caller seen value = some answer ∧
      .acted action ∈ trace caller (seen ++ [value]) (resume answer) := by
  cases hanswer : caller seen value with
  | none =>
      rw [trace_yield_none resume hanswer, List.mem_singleton] at h
      cases h
  | some answer =>
      rw [trace_yield_some resume hanswer] at h
      rcases List.mem_cons.mp h with h | h
      · cases h
      · rcases List.mem_cons.mp h with h | h
        · cases h
        · exact ⟨answer, rfl, h⟩

/-- While values are yielded, actions come only from what an answer stops
with, or from what follows them. -/
theorem acted_of_yieldAll {stops : β → Option (Coroutine ω ε α β)} {next : Coroutine ω ε α β}
    {values : List α} {action : ω}
    (h : .acted action ∈ trace caller seen (yieldAll stops next values)) :
    (∃ answer stopped later, stops answer = some stopped ∧
      .acted action ∈ trace caller later stopped) ∨
    ∃ later, .acted action ∈ trace caller later next := by
  induction values generalizing seen with
  | nil => exact Or.inr ⟨seen, h⟩
  | cons value rest ih =>
      obtain ⟨answer, -, hbehind⟩ := acted_of_yield h
      cases hstops : stops answer with
      | some stopped =>
          simp only [hstops] at hbehind
          exact Or.inl ⟨answer, stopped, _, hstops, hbehind⟩
      | none =>
          simp only [hstops] at hbehind
          exact ih hbehind

end Trace

section Ends

variable {caller : Caller α β} {seen : List α} {value : α} {answer : β}

theorem yields_yield_some (resume : β → Coroutine ω ε α β) (h : caller seen value = some answer) :
    yields caller seen (.yield value resume) =
      value :: yields caller (seen ++ [value]) (resume answer) := by
  simp only [yields, h]

theorem outcome_yield_some (resume : β → Coroutine ω ε α β)
    (h : caller seen value = some answer) :
    outcome caller seen (.yield value resume) =
      outcome caller (seen ++ [value]) (resume answer) := by
  simp only [outcome, h]

end Ends

/-- What is sent answers what was yielded directly before. -/
def Answers (caller : Caller α β) (stretch : List (Observation ω α β)) :
    Observation ω α β → Prop
  | .sent answer => ∃ value seen, stretch = [.yielded value] ∧ caller seen value = some answer
  | _ => True

theorem follows_trace (caller : Caller α β) (seen : List α) (gen : Coroutine ω ε α β) :
    Follows (Answers caller) (gen.trace caller seen) := by
  induction gen generalizing seen with
  | done => exact follows_nil
  | raise error => exact follows_nil
  | wait => exact follows_nil
  | act action next ih => exact follows_cons trivial (ih seen)
  | yield value resume ih =>
      cases hanswer : caller seen value with
      | none =>
          rw [trace_yield_none resume hanswer]
          exact follows_cons trivial follows_nil
      | some answer =>
          rw [trace_yield_some resume hanswer]
          have hsent : Follows (Answers caller)
              ([.yielded value] ++ [.sent answer] : List (Observation ω α β)) :=
            follows_snoc (follows_cons trivial follows_nil) ⟨value, seen, rfl, hanswer⟩
          exact follows_append hsent (ih answer (seen ++ [value]))

theorem caller_of_trace {caller : Caller α β} {seen : List α} {gen : Coroutine ω ε α β}
    {before after : List (Observation ω α β)} {value : α} {answer : β}
    (h : gen.trace caller seen = before ++ .yielded value :: .sent answer :: after) :
    ∃ earlier, caller earlier value = some answer := by
  obtain ⟨front, stretch, hsplit, hanswers⟩ :=
    follows_trace caller seen gen (before ++ [.yielded value]) (.sent answer) after (by simp [h])
  obtain ⟨other, earlier, rfl, hanswer⟩ := hanswers
  obtain ⟨-, hlast⟩ := List.append_inj' hsplit rfl
  obtain rfl := Observation.yielded.inj (List.cons.inj hlast).1
  exact ⟨earlier, hanswer⟩

end Coroutine

end Library
