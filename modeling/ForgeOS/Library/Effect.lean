import Mathlib.Logic.Basic

/-!
Computations over a state that may raise. Raising keeps what has been
written so far, as an exception does that escapes from code acting on files:
`exec` returns the outcome together with the state that was reached, on both
paths. The file gives the equations of `exec`, and the rule for invariants of
a whole run of calls.
-/

namespace Library

section Outcome

variable {ε ε' α β : Type}

@[simp]
theorem ok_bind (a : α) (f : α → Except ε β) : (Except.ok a >>= f) = f a := rfl

@[simp]
theorem error_bind (e : ε) (f : α → Except ε β) : (Except.error e >>= f) = .error e := rfl

@[simp]
theorem ok_mapError (f : ε → ε') (a : α) : (Except.ok a).mapError f = .ok a := rfl

@[simp]
theorem error_mapError (f : ε → ε') (e : ε) :
    (Except.error e : Except ε α).mapError f = .error (f e) := rfl

/-- The error of an outcome that is one. -/
def errorOf : Except ε α → Option ε
  | .error e => some e
  | .ok _ => none

@[simp]
theorem errorOf_error (e : ε) : errorOf (.error e : Except ε α) = some e := rfl

@[simp]
theorem errorOf_ok (a : α) : errorOf (.ok a : Except ε α) = none := rfl

instance decidableForallOk (r : Except ε α) (P : α → Prop) [∀ a, Decidable (P a)] :
    Decidable (∀ a, r = .ok a → P a) :=
  match r with
  | .error _ => isTrue fun _ h => nomatch h
  | .ok a => decidable_of_iff (P a) ⟨fun h _ heq => Except.ok.inj heq ▸ h, fun h => h a rfl⟩

theorem isOk_of_toOption {m : Except ε α} {a : α} (h : m.toOption = some a) : m.isOk = true := by
  cases m with
  | error e => cases h
  | ok value => rfl

end Outcome

/-- A computation over the state `σ` that returns an `α` or raises an `ε`. -/
abbrev Effect (σ ε α : Type) := ExceptT ε (StateM σ) α

namespace Effect

variable {σ τ ε ε' α β : Type}

/-- Run a computation: how it ended, and the state it left behind. -/
def exec (m : Effect σ ε α) (s : σ) : Except ε α × σ := m.run.run s

/-- Return the value of a pure outcome, or raise its error. -/
def ofExcept (r : Except ε α) : Effect σ ε α := ExceptT.mk (pure r)

/-- Run a computation on a part of the state. -/
def within (part : τ → σ) (replace : σ → τ → τ) (m : Effect σ ε α) : Effect τ ε α :=
  ExceptT.mk fun t => ((m.exec (part t)).1, replace (m.exec (part t)).2 t)

/-- Raise other errors in the place of those of a computation. -/
def mapError (f : ε → ε') (m : Effect σ ε α) : Effect σ ε' α :=
  ExceptT.mk fun s => ((m.exec s).1.mapError f, (m.exec s).2)

/-- `finally`: what is done to the state whether a computation returns or
raises. -/
def ensuring (m : Effect σ ε α) (cleanup : σ → σ) : Effect σ ε α :=
  ExceptT.mk fun s => ((m.exec s).1, cleanup (m.exec s).2)

/-- `except`: return a value in the place of some errors. -/
def recover (m : Effect σ ε α) (instead : ε → Option α) : Effect σ ε α :=
  ExceptT.mk fun s =>
    match m.exec s with
    | (.error e, s') =>
        match instead e with
        | some a => (.ok a, s')
        | none => (.error e, s')
    | returned => returned

@[simp]
theorem exec_pure (a : α) (s : σ) :
    exec (pure a : Effect σ ε α) s = (.ok a, s) := rfl

@[simp]
theorem exec_throw (e : ε) (s : σ) :
    exec (throw e : Effect σ ε α) s = (.error e, s) := rfl

@[simp]
theorem exec_get (s : σ) : exec (get : Effect σ ε σ) s = (.ok s, s) := rfl

@[simp]
theorem exec_modify (f : σ → σ) (s : σ) :
    exec (modify f : Effect σ ε Unit) s = (.ok (), f s) := rfl

@[simp]
theorem exec_ofExcept (r : Except ε α) (s : σ) :
    exec (ofExcept r : Effect σ ε α) s = (r, s) := rfl

@[simp]
theorem exec_within (part : τ → σ) (replace : σ → τ → τ) (m : Effect σ ε α) (t : τ) :
    exec (m.within part replace) t = ((exec m (part t)).1, replace (exec m (part t)).2 t) := rfl

@[simp]
theorem exec_mapError (f : ε → ε') (m : Effect σ ε α) (s : σ) :
    exec (m.mapError f) s = ((exec m s).1.mapError f, (exec m s).2) := rfl

@[simp]
theorem exec_ensuring (m : Effect σ ε α) (cleanup : σ → σ) (s : σ) :
    exec (m.ensuring cleanup) s = ((exec m s).1, cleanup (exec m s).2) := rfl

theorem exec_recover (m : Effect σ ε α) (instead : ε → Option α) (s : σ) :
    exec (m.recover instead) s =
      match exec m s with
      | (.error e, s') =>
          match instead e with
          | some a => (.ok a, s')
          | none => (.error e, s')
      | returned => returned := rfl

/-- Recovering changes nothing more. -/
@[simp]
theorem exec_recover_snd (m : Effect σ ε α) (instead : ε → Option α) (s : σ) :
    (exec (m.recover instead) s).2 = (exec m s).2 := by
  rw [exec_recover]
  rcases exec m s with ⟨e | a, s'⟩
  · dsimp only
    split <;> rfl
  · rfl

/-- Sequencing stops at the first error and keeps the state reached there. -/
theorem exec_bind (m : Effect σ ε α) (f : α → Effect σ ε β) (s : σ) :
    exec (m >>= f) s =
      match exec m s with
      | (.ok a, s') => exec (f a) s'
      | (.error e, s') => (.error e, s') := by
  change (ExceptT.bindCont f (exec m s).1).run (exec m s).2 = _
  rcases exec m s with ⟨r, s'⟩
  cases r with
  | ok a => rfl
  | error e => rfl

theorem exec_bind_ok {m : Effect σ ε α} {s s' : σ} {a : α}
    (f : α → Effect σ ε β) (h : exec m s = (.ok a, s')) :
    exec (m >>= f) s = exec (f a) s' := by
  rw [exec_bind, h]

theorem exec_bind_error {m : Effect σ ε α} {s s' : σ} {e : ε}
    (f : α → Effect σ ε β) (h : exec m s = (.error e, s')) :
    exec (m >>= f) s = (.error e, s') := by
  rw [exec_bind, h]

/-- Returning something else leaves the same state behind. -/
theorem exec_bind_pure_snd (m : Effect σ ε α) (f : α → β) (s : σ) :
    (exec (m >>= fun a => pure (f a)) s).2 = (exec m s).2 := by
  rw [exec_bind]
  rcases exec m s with ⟨e | a, t⟩
  · rfl
  · rfl

/-- A sequence that returns has run both its parts. -/
theorem ok_of_exec_bind {m : Effect σ ε α} {f : α → Effect σ ε β} {s s' : σ} {b : β}
    (h : exec (m >>= f) s = (.ok b, s')) :
    ∃ a t, exec m s = (.ok a, t) ∧ exec (f a) t = (.ok b, s') := by
  rw [exec_bind] at h
  rcases hrun : exec m s with ⟨e | a, t⟩
  · rw [hrun] at h
    cases h
  · rw [hrun] at h
    exact ⟨a, t, rfl, h⟩

/-- A sequence returns only if its first part does. -/
theorem exec_isOk_of_bind {m : Effect σ ε α} {f : α → Effect σ ε β} {s : σ}
    (h : (exec (m >>= f) s).1.isOk = true) : (exec m s).1.isOk = true := by
  rw [exec_bind] at h
  rcases hrun : exec m s with ⟨e | a, s'⟩
  · rw [hrun] at h
    cases h
  · rfl

/-! ### What a computation raises and changes -/

/-- Only such errors are raised, and only so is the state changed. -/
def Keeps (allowed : ε → Prop) (related : σ → σ → Prop) (m : Effect σ ε α) : Prop :=
  ∀ s, (∀ error, (exec m s).1 = .error error → allowed error) ∧ related s (exec m s).2

section Keeps

variable {allowed : ε → Prop} {related : σ → σ → Prop}

theorem keeps_pure (hrefl : ∀ s, related s s) (a : α) :
    Keeps allowed related (pure a : Effect σ ε α) := fun s => ⟨nofun, hrefl s⟩

theorem keeps_get (hrefl : ∀ s, related s s) :
    Keeps allowed related (get : Effect σ ε σ) := fun s => ⟨nofun, hrefl s⟩

theorem keeps_throw (hrefl : ∀ s, related s s) {error : ε} (herror : allowed error) :
    Keeps allowed related (throw error : Effect σ ε α) := fun s => by
  refine ⟨fun other hother => ?_, hrefl s⟩
  cases hother
  exact herror

theorem keeps_modify {f : σ → σ} (hf : ∀ s, related s (f s)) :
    Keeps allowed related (modify f : Effect σ ε Unit) := fun s => ⟨nofun, hf s⟩

theorem keeps_ofExcept (hrefl : ∀ s, related s s) {r : Except ε α}
    (hr : ∀ error, r = .error error → allowed error) :
    Keeps allowed related (ofExcept r : Effect σ ε α) := fun s => ⟨hr, hrefl s⟩

/-- A sequence keeps to what both its parts keep to. -/
theorem keeps_bind (htrans : ∀ s t u, related s t → related t u → related s u)
    {m : Effect σ ε α} {f : α → Effect σ ε β} (hm : Keeps allowed related m)
    (hf : ∀ a, Keeps allowed related (f a)) : Keeps allowed related (m >>= f) := by
  intro s
  obtain ⟨hraised, hchanged⟩ := hm s
  rw [exec_bind]
  rcases hrun : exec m s with ⟨error | a, t⟩
  · rw [hrun] at hraised hchanged
    refine ⟨fun other hother => ?_, hchanged⟩
    cases hother
    exact hraised error rfl
  · rw [hrun] at hchanged
    obtain ⟨hraised', hchanged'⟩ := hf a t
    exact ⟨hraised', htrans s t _ hchanged hchanged'⟩

/-- Where anything may be raised, only the change counts. -/
theorem keeps_of_related {m : Effect σ ε α} (h : ∀ s, related s (exec m s).2) :
    Keeps (fun _ => True) related m := fun s => ⟨fun _ _ => trivial, h s⟩

/-- To recover from an error changes nothing more. -/
theorem keeps_recover {m : Effect σ ε α} (hm : Keeps (fun _ => True) related m)
    (instead : ε → Option α) : Keeps (fun _ => True) related (m.recover instead) :=
  keeps_of_related fun s => by
    rw [exec_recover_snd]
    exact (hm s).2

theorem keeps_mapM {ι : Type} (hrefl : ∀ s, related s s)
    (htrans : ∀ s t u, related s t → related t u → related s u) {f : ι → Effect σ ε α}
    (hf : ∀ item, Keeps allowed related (f item)) (items : List ι) :
    Keeps allowed related (items.mapM f) := by
  induction items with
  | nil => exact keeps_pure hrefl []
  | cons item rest ih =>
      rw [List.mapM_cons]
      exact keeps_bind htrans (hf item) fun value =>
        keeps_bind htrans ih fun values => keeps_pure hrefl (value :: values)

theorem keeps_foldlM {ι : Type} (hrefl : ∀ s, related s s)
    (htrans : ∀ s t u, related s t → related t u → related s u) {f : β → ι → Effect σ ε β}
    {items : List ι} (hf : ∀ acc, ∀ item ∈ items, Keeps allowed related (f acc item)) (acc : β) :
    Keeps allowed related (items.foldlM f acc) := by
  induction items generalizing acc with
  | nil => exact keeps_pure hrefl acc
  | cons item rest ih =>
      rw [List.foldlM_cons]
      refine keeps_bind htrans (hf acc item (by simp)) fun next => ih ?_ next
      exact fun acc other hother => hf acc other (by simp [hother])

end Keeps

/-! ### Lists of computations -/

section Lists

variable {ι : Type} {f : ι → Effect σ ε α}

/-- Where an invariant fixes the outcome of each computation, it fixes that of
the list. -/
theorem exec_mapM_outcome {I : σ → Prop} {outcome : ι → Except ε α}
    (h : ∀ item s, I s → (exec (f item) s).1 = outcome item ∧ I (exec (f item) s).2)
    (items : List ι) {s : σ} (hs : I s) :
    (exec (items.mapM f) s).1 = items.mapM outcome ∧ I (exec (items.mapM f) s).2 := by
  induction items generalizing s with
  | nil => exact ⟨rfl, hs⟩
  | cons item rest ih =>
      obtain ⟨houtcome, hkept⟩ := h item s hs
      rw [List.mapM_cons, List.mapM_cons, exec_bind]
      rcases hitem : exec (f item) s with ⟨error | value, s'⟩ <;>
        rw [hitem] at houtcome hkept
      · rw [← houtcome]
        exact ⟨rfl, hkept⟩
      · obtain ⟨hothers, hlast⟩ := ih hkept
        rw [← houtcome]
        dsimp only
        rw [exec_bind]
        rcases hrest : exec (rest.mapM f) s' with ⟨error | values, s''⟩ <;>
          rw [hrest] at hothers hlast
        · rw [← hothers]
          exact ⟨rfl, hlast⟩
        · rw [← hothers]
          exact ⟨rfl, hlast⟩

/-- What every turn of a loop keeps, the loop keeps, whether it returns or
raises. -/
theorem exec_foldlM_invariant {I : σ → Prop} {f : β → ι → Effect σ ε β}
    (h : ∀ acc item s, I s → I (exec (f acc item) s).2) (items : List ι) (acc : β) {s : σ}
    (hs : I s) : I (exec (items.foldlM f acc) s).2 := by
  induction items generalizing acc s with
  | nil => exact hs
  | cons item rest ih =>
      have hitem := h acc item s hs
      rw [List.foldlM_cons, exec_bind]
      rcases hrun : exec (f acc item) s with ⟨error | next, after⟩
      · rwa [hrun] at hitem
      · rw [hrun] at hitem
        exact ih next hitem

/-- Where it depends on the item alone whether a turn of a loop returns, the
loop returns exactly if every turn does; then it leaves the state that the
turns leave one after the other. -/
theorem exec_foldlM_isOk_iff {P : ι → Prop} {f : β → ι → Effect σ ε β} {g : σ → ι → σ}
    (hok : ∀ acc item s, (exec (f acc item) s).1.isOk = true ↔ P item)
    (hstate : ∀ acc item s, P item → (exec (f acc item) s).2 = g s item) (items : List ι)
    (acc : β) (s : σ) :
    ((exec (items.foldlM f acc) s).1.isOk = true ↔ ∀ item ∈ items, P item) ∧
      ((∀ item ∈ items, P item) → (exec (items.foldlM f acc) s).2 = items.foldl g s) := by
  induction items generalizing acc s with
  | nil => exact ⟨iff_of_true rfl (by simp), fun _ => rfl⟩
  | cons item rest ih =>
      have hfirst := hok acc item s
      have hleft := hstate acc item s
      rw [List.foldlM_cons, List.forall_mem_cons, exec_bind, List.foldl_cons]
      rcases hitem : exec (f acc item) s with ⟨error | next, after⟩
      · rw [hitem] at hfirst
        have hnot : ¬ P item := fun h => Bool.false_ne_true (hfirst.mpr h)
        exact ⟨iff_of_false Bool.false_ne_true fun h => hnot h.1, fun h => absurd h.1 hnot⟩
      · rw [hitem] at hfirst hleft
        have hitemOk : P item := hfirst.mp rfl
        obtain ⟨hreturns, hlast⟩ := ih next after
        refine ⟨hreturns.trans (and_iff_right hitemOk).symm, fun h => ?_⟩
        rw [← hleft hitemOk]
        exact hlast h.2

/-- Where returning does not depend on the computations before, the list
returns exactly if each of them does. -/
theorem exec_mapM_isOk_iff {P : σ → ι → Prop}
    (hok : ∀ s item, (exec (f item) s).1.isOk = true ↔ P s item)
    (hkept : ∀ s item value s', exec (f item) s = (.ok value, s') →
      ∀ other, P s' other ↔ P s other) (items : List ι) (s : σ) :
    (exec (items.mapM f) s).1.isOk = true ↔ ∀ item ∈ items, P s item := by
  induction items generalizing s with
  | nil => exact iff_of_true rfl (by simp)
  | cons item rest ih =>
      have hfirst := hok s item
      rw [List.mapM_cons, exec_bind, List.forall_mem_cons, ← hfirst]
      rcases hitem : exec (f item) s with ⟨error | value, s'⟩
      · exact iff_of_false nofun fun h => nomatch h.1
      · have hrest := ih s'
        simp only [hkept s item value s' hitem] at hrest
        dsimp only
        rw [exec_bind, ← hrest]
        rcases exec (rest.mapM f) s' with ⟨error | values, s''⟩
        · exact iff_of_false nofun fun h => nomatch h.2
        · exact iff_of_true rfl ⟨rfl, rfl⟩

end Lists

end Effect

section Run

variable {σ κ : Type}

/-- The state after a list of calls, each of which may succeed or fail. -/
def run (step : σ → κ → σ) (s : σ) (calls : List κ) : σ := calls.foldl step s

@[simp]
theorem run_nil (step : σ → κ → σ) (s : σ) : run step s [] = s := rfl

theorem run_append (step : σ → κ → σ) (s : σ) (xs ys : List κ) :
    run step s (xs ++ ys) = run step (run step s xs) ys := by
  simp only [run, List.foldl_append]

@[simp]
theorem run_snoc (step : σ → κ → σ) (s : σ) (xs : List κ) (k : κ) :
    run step s (xs ++ [k]) = step (run step s xs) k := by
  simp only [run, List.foldl_append, List.foldl_cons, List.foldl_nil]

/-- What holds at the start and is preserved by every call of a run holds at
its end. -/
theorem run_invariant {step : σ → κ → σ} {I : σ → Prop} {calls : List κ} {s : σ}
    (hstart : I s) (hstep : ∀ t, ∀ k ∈ calls, I t → I (step t k)) :
    I (run step s calls) := by
  induction calls generalizing s with
  | nil => exact hstart
  | cons k rest ih =>
      have hhead : I (step s k) := hstep s k (by simp) hstart
      exact ih hhead (fun t c hc => hstep t c (by simp [hc]))

/-- What the calls of a run yield, each in the state it finds. -/
def collect {α : Type} (step : σ → κ → σ) (yielded : σ → κ → List α) : σ → List κ → List α
  | _, [] => []
  | s, call :: rest => yielded s call ++ collect step yielded (step s call) rest

@[simp]
theorem collect_snoc {α : Type} (step : σ → κ → σ) (yielded : σ → κ → List α) (s : σ)
    (calls : List κ) (call : κ) :
    collect step yielded s (calls ++ [call]) =
      collect step yielded s calls ++ yielded (run step s calls) call := by
  induction calls generalizing s with
  | nil => simp [collect]
  | cons first rest ih =>
      rw [List.cons_append, collect, ih, collect, List.append_assoc]
      rfl

/-- What is picked out of a run with one more call. -/
theorem filterMap_snoc {α : Type} (pick : κ → Option α) (calls : List κ) (last : κ) :
    (calls ++ [last]).filterMap pick = calls.filterMap pick ++ (pick last).toList := by
  rw [List.filterMap_append]
  cases h : pick last <;> simp [h]

/-- Every call of a run meets a condition on the state it finds. -/
def Throughout (step : σ → κ → σ) (R : σ → κ → Prop) (s : σ) (calls : List κ) : Prop :=
  ∀ before k after, calls = before ++ k :: after → R (run step s before) k

theorem throughout_nil (step : σ → κ → σ) (R : σ → κ → Prop) (s : σ) :
    Throughout step R s [] := by
  intro before k after hcalls
  cases before <;> cases hcalls

theorem throughout_cons (step : σ → κ → σ) (R : σ → κ → Prop) (s : σ) (call : κ)
    (rest : List κ) :
    Throughout step R s (call :: rest) ↔ R s call ∧ Throughout step R (step s call) rest := by
  constructor
  · intro hall
    refine ⟨hall [] call rest rfl, ?_⟩
    intro before k after hrest
    exact hall (call :: before) k after (by rw [hrest, List.cons_append])
  · rintro ⟨hhead, htail⟩ before k after hcalls
    cases before with
    | nil =>
        obtain ⟨rfl, rfl⟩ := List.cons.inj hcalls
        exact hhead
    | cons first before =>
        obtain ⟨rfl, hrest⟩ := List.cons.inj hcalls
        exact htail before k after hrest

/-- When nothing but a call that meets a condition leads to where the invariant
holds, and from there, the invariant holds at the end of a run exactly if every
call of it meets the condition. `K` is what the calls keep in any case. -/
theorem run_iff_throughout (step : σ → κ → σ) {K I : σ → Prop} {R : σ → κ → Prop}
    (calls : List κ) {s : σ} (hkept : ∀ t, ∀ k ∈ calls, K t → K (step t k))
    (hstep : ∀ t, ∀ k ∈ calls, K t → (I (step t k) ↔ I t ∧ R t k)) (hK : K s) (hI : I s) :
    I (run step s calls) ↔ Throughout step R s calls := by
  have hends : I (run step s calls) ↔ I s ∧ Throughout step R s calls := by
    clear hI
    induction calls generalizing s with
    | nil => simp [throughout_nil]
    | cons call rest ih =>
        have hrest := ih (fun t k hk => hkept t k (by simp [hk]))
          (fun t k hk => hstep t k (by simp [hk])) (hkept s call (by simp) hK)
        rw [throughout_cons, ← and_assoc, ← hstep s call (by simp) hK]
        exact hrest
  simp only [hends, hI, true_and]

/-- When each call keeps the invariant exactly if it meets a condition, the
invariant holds all along a run exactly if every call of it meets the
condition. `K` is what the calls keep in any case. -/
theorem run_throughout_iff (step : σ → κ → σ) {K I : σ → Prop} {R : σ → κ → Prop}
    (calls : List κ) {s : σ} (hkept : ∀ t, ∀ k ∈ calls, K t → K (step t k))
    (hstep : ∀ t, ∀ k ∈ calls, K t → I t → (I (step t k) ↔ R t k)) (hK : K s) (hI : I s) :
    (∀ before after, calls = before ++ after → I (run step s before)) ↔
      ∀ before k after, calls = before ++ k :: after → R (run step s before) k := by
  change _ ↔ Throughout step R s calls
  induction calls generalizing s with
  | nil => simp [hI, throughout_nil]
  | cons call rest ih =>
      have hhead := hstep s call (by simp) hK hI
      have hrest (hnext : I (step s call)) := ih (fun t k hk => hkept t k (by simp [hk]))
        (fun t k hk => hstep t k (by simp [hk])) (hkept s call (by simp) hK) hnext
      rw [throughout_cons]
      constructor
      · intro hall
        have hnext : I (step s call) := hall [call] rest rfl
        refine ⟨hhead.mp hnext, (hrest hnext).mp ?_⟩
        intro earlier later hsplit
        exact hall (call :: earlier) later (by rw [hsplit, List.cons_append])
      · rintro ⟨hcall, htail⟩ before after hcalls
        have hnext : I (step s call) := hhead.mpr hcall
        cases before with
        | nil => exact hI
        | cons first before =>
            obtain ⟨rfl, hsplit⟩ := List.cons.inj hcalls
            exact (hrest hnext).mpr htail before after hsplit

end Run

end Library
