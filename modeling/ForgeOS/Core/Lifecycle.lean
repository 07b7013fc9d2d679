import ForgeOS.Project.Scaffold

/-!
The stage lifecycle, apart from files and events: what each transition does to
the statuses of a pipeline and to its current stage, when it is enabled, and
the invariants that every sequence of enabled transitions keeps.
-/

namespace ForgeOS

open Library

inductive Transition where
  | started (stageId : String)
  | completed (stageId : String)
  | blocked (stageId : String)
  | overridden (stageId : String)
deriving DecidableEq, Repr

/-- The status of an entry after an override to `stageId`. -/
def overriddenStatus (stageId : String) (entry : String × StageStatus) : StageStatus :=
  if entry.1 = stageId then .active
  else if entry.2 = .active then .blocked
  else entry.2

/-- What a transition does to the lifecycle. -/
def Transition.apply (v : View) : Transition → View
  | .started stageId => ⟨v.stages.set stageId .active, some stageId⟩
  | .completed stageId => ⟨v.stages.set stageId .complete, none⟩
  | .blocked stageId => ⟨v.stages.set stageId .blocked, v.current⟩
  | .overridden stageId =>
      ⟨v.stages.map fun entry => (entry.1, overriddenStatus stageId entry), some stageId⟩

namespace View

/-- The lifecycle after a sequence of transitions. -/
def replay (v : View) (transitions : List Transition) : View :=
  transitions.foldl Transition.apply v

/-- The status of a stage; the first one counts. -/
def status? (v : View) (stageId : String) : Option StageStatus := v.stages.get? stageId

def Idle (v : View) : Prop := ∀ entry ∈ v.stages, entry.2 ≠ .active

/-- A stage that may start: it is neither active nor complete, nothing is
active, and the stage right before it is complete. -/
structure CanStart (v : View) (stageId : String) : Prop where
  startable : ∃ before status rest, v.stages = before ++ (stageId, status) :: rest ∧
    stageId ∉ before.map Prod.fst ∧ status ≠ .active ∧ status ≠ .complete ∧
    ∀ previous, before.getLast? = some previous → previous.2 = .complete
  idle : v.Idle

/-- When the state manager goes through with a transition. -/
def Enabled (v : View) : Transition → Prop
  | .started stageId => v.CanStart stageId
  | .completed stageId => v.status? stageId = some .active
  | .blocked stageId => v.status? stageId = some .active
  | .overridden stageId => stageId ∈ v.ids

theorem CanStart.status {v : View} {stageId : String} (h : v.CanStart stageId) :
    ∃ status, v.status? stageId = some status ∧ status ≠ .active ∧ status ≠ .complete := by
  obtain ⟨before, status, rest, hsplit, hfresh, hactive, hcomplete, -⟩ := h.startable
  exact ⟨status, Dict.get?_of_split hsplit hfresh, hactive, hcomplete⟩

/-- No transition adds, removes or reorders stages. -/
theorem ids_apply {v : View} {t : Transition} (h : v.Enabled t) : (t.apply v).ids = v.ids := by
  cases t with
  | started stageId =>
      obtain ⟨status, hstatus, -, -⟩ := CanStart.status h
      exact Dict.keys_set_of_get? hstatus _
  | completed stageId => exact Dict.keys_set_of_get? h _
  | blocked stageId => exact Dict.keys_set_of_get? h _
  | overridden stageId =>
      simp only [Transition.apply, ids, List.map_map, Function.comp_def]

/-- With distinct stages, only the assigned entry has the assigned key. -/
private theorem value_of_mem_set {stages : Dict String StageStatus} {stageId : String}
    {old new status : StageStatus} (hkeys : (stages.map Prod.fst).Nodup)
    (hold : stages.get? stageId = some old)
    (hmember : (stageId, status) ∈ stages.set stageId new) : status = new := by
  have hnodup : ((stages.set stageId new).map Prod.fst).Nodup := by
    rw [Dict.keys_set_of_get? hold]
    exact hkeys
  have hlookup := Dict.get?_of_mem hnodup hmember
  rw [Dict.get?_set, if_pos rfl, Option.some.injEq] at hlookup
  exact hlookup.symm

/-! ### One active stage -/

/-- At most one stage is active, and if one is, it is the current one. -/
structure SingleActive (v : View) : Prop where
  atMostOne : v.statuses.count .active ≤ 1
  current : ∀ entry ∈ v.stages, entry.2 = .active → v.current = some entry.1

/-- With distinct stages, the pointer makes the active stage unique. -/
theorem SingleActive.of_current {v : View} (hids : v.ids.Nodup)
    (h : ∀ entry ∈ v.stages, entry.2 = .active → v.current = some entry.1) :
    v.SingleActive := by
  refine ⟨?_, h⟩
  have hkeys : ∀ id ∈ (v.stages.filter fun entry => entry.2 = .active).map Prod.fst,
      v.current = some id := by
    intro id hid
    obtain ⟨entry, hentry, rfl⟩ := List.mem_map.mp hid
    rw [List.mem_filter, decide_eq_true_eq] at hentry
    exact h entry hentry.1 hentry.2
  have hnodup : ((v.stages.filter fun entry => entry.2 = .active).map Prod.fst).Nodup :=
    List.Nodup.sublist (List.filter_sublist.map Prod.fst) hids
  have hcount : v.statuses.count .active =
      ((v.stages.filter fun entry => entry.2 = .active).map Prod.fst).length := by
    rw [List.length_map, ← List.countP_eq_length_filter, statuses, List.count,
      List.countP_map]
    rfl
  rw [hcount]
  generalize (v.stages.filter fun entry => entry.2 = .active).map Prod.fst = ids at hkeys hnodup
  match ids with
  | [] => exact Nat.zero_le _
  | [_] => exact Nat.le_refl _
  | first :: second :: rest =>
      have hfirst := hkeys first (by simp)
      have hsecond := hkeys second (by simp)
      rw [hfirst, Option.some.injEq] at hsecond
      rw [hsecond, List.nodup_cons] at hnodup
      exact absurd (List.mem_cons_self) hnodup.1

theorem SingleActive.eq_of_active {v : View} (h : v.SingleActive) {a b : String}
    (ha : (a, .active) ∈ v.stages) (hb : (b, .active) ∈ v.stages) : a = b := by
  have hcurrent := h.current _ ha rfl
  rw [h.current _ hb rfl, Option.some.injEq] at hcurrent
  exact hcurrent.symm

/-- Once the active stage leaves, nothing is active. -/
theorem SingleActive.idle_set {v : View} (h : v.SingleActive) (hids : v.ids.Nodup)
    {stageId : String} (hactive : v.status? stageId = some .active) {status : StageStatus}
    (hstatus : status ≠ .active) :
    ∀ entry ∈ v.stages.set stageId status, entry.2 ≠ .active := by
  intro entry hentry hentryActive
  rcases Dict.mem_set hentry with rfl | hold
  · exact hstatus hentryActive
  · have hmember : (entry.1, StageStatus.active) ∈ v.stages := by
      rw [← hentryActive]
      exact hold
    have hid : entry.1 = stageId := h.eq_of_active hmember (Dict.mem_of_get? hactive)
    have hvalue : (stageId, entry.2) ∈ v.stages.set stageId status := by
      rw [← hid]
      rwa [← hid] at hentry
    exact hstatus ((value_of_mem_set hids hactive hvalue).symm.trans hentryActive)

/-- The step lemma: every enabled transition keeps a single active stage. -/
theorem SingleActive.apply {v : View} (h : v.SingleActive) (hids : v.ids.Nodup)
    {t : Transition} (ht : v.Enabled t) : (t.apply v).SingleActive := by
  apply SingleActive.of_current
  · rw [ids_apply ht]
    exact hids
  · intro entry hentry hactive
    cases t with
    | started stageId =>
        rcases Dict.mem_set hentry with rfl | hold
        · rfl
        · exact absurd hactive (CanStart.idle ht entry hold)
    | completed stageId =>
        exact absurd hactive (h.idle_set hids ht (by decide) entry hentry)
    | blocked stageId =>
        exact absurd hactive (h.idle_set hids ht (by decide) entry hentry)
    | overridden stageId =>
        simp only [Transition.apply, List.mem_map] at hentry
        obtain ⟨old, -, rfl⟩ := hentry
        simp only [overriddenStatus] at hactive
        split at hactive
        · rename_i heq
          simp only [Transition.apply, heq]
        · split at hactive
          · cases hactive
          · rename_i hother
            exact absurd hactive hother

/-! ### The next stage -/

/-- The stage right after the first one with an id. -/
def next? (v : View) (stageId : String) : Option (String × StageStatus) :=
  (v.stages.dropWhile fun entry => entry.1 ≠ stageId).tail.head?

theorem next?_of_split {v : View} {stageId : String} {status : StageStatus}
    {before rest : List (String × StageStatus)}
    (hsplit : v.stages = before ++ (stageId, status) :: rest)
    (hfresh : stageId ∉ before.map Prod.fst) : v.next? stageId = rest.head? := by
  have hdrop : v.stages.dropWhile (fun entry => entry.1 ≠ stageId) =
      (stageId, status) :: rest := by
    rw [hsplit, List.dropWhile_append_of_pos, List.dropWhile_cons_of_neg]
    · simp
    · intro entry hentry
      have hne : entry.1 ≠ stageId := fun h => hfresh (h ▸ List.mem_map_of_mem hentry)
      simpa using hne
  rw [next?, hdrop, List.tail_cons]

/-- In a pipeline with a single active stage, the stage after it may start
once the active one is complete, unless it is complete already. -/
theorem SingleActive.canStart_next {v : View} (h : v.SingleActive) (hids : v.ids.Nodup)
    {stageId next : String} {status : StageStatus}
    (hactive : v.status? stageId = some .active) (hnext : v.next? stageId = some (next, status)) :
    ((Transition.completed stageId).apply v).CanStart next ↔ status ≠ .complete := by
  obtain ⟨before, rest, hsplit, hfresh⟩ := Dict.split_of_get? hactive
  rw [next?_of_split hsplit hfresh, List.head?_eq_some_iff] at hnext
  obtain ⟨rest, rfl⟩ := hnext
  have hkeys : (before.map Prod.fst ++ stageId :: next :: rest.map Prod.fst).Nodup := by
    have hnodup := hids
    rw [ids, hsplit, List.map_append, List.map_cons, List.map_cons] at hnodup
    exact hnodup
  rw [List.nodup_append, List.nodup_cons] at hkeys
  obtain ⟨-, ⟨hne, -⟩, hdisjoint⟩ := hkeys
  have hcompleted : ((Transition.completed stageId).apply v).stages =
      (before ++ [(stageId, .complete)]) ++ (next, status) :: rest := by
    rw [Transition.apply, Dict.set_of_split hsplit hfresh, List.append_assoc]
    rfl
  have hnextFresh : next ∉ (before ++ [(stageId, StageStatus.complete)]).map Prod.fst := by
    rw [List.map_append, List.mem_append, not_or]
    refine ⟨fun hmember => hdisjoint next hmember next (by simp) rfl, ?_⟩
    simp only [List.map_cons, List.map_nil, List.mem_singleton]
    rintro rfl
    exact hne (by simp)
  constructor
  · intro hcan
    obtain ⟨status', hstatus', -, hincomplete⟩ := hcan.status
    rw [status?, Dict.get?_of_split hcompleted hnextFresh, Option.some.injEq] at hstatus'
    exact hstatus' ▸ hincomplete
  · intro hincomplete
    have hidle : ∀ entry ∈ v.stages.set stageId .complete, entry.2 ≠ .active :=
      h.idle_set hids hactive (by decide)
    refine ⟨⟨_, status, rest, hcompleted, hnextFresh, ?_, hincomplete, ?_⟩, hidle⟩
    · apply hidle (next, status)
      change _ ∈ ((Transition.completed stageId).apply v).stages
      rw [hcompleted]
      simp
    · intro previous hlast
      rw [List.getLast?_concat, Option.some.injEq] at hlast
      rw [← hlast]

/-! ### Pipeline order -/

/-- Whatever precedes a stage that has started is complete, and no stage has
a status that the state manager does not set. -/
structure Ordered (v : View) : Prop where
  precedes : v.statuses.Pairwise fun a b => b ≠ .notStarted → a = .complete
  known : ∀ status ∈ v.statuses,
    status = .complete ∨ status = .active ∨ status = .blocked ∨ status = .notStarted

/-- The statuses read `complete*`, then at most one active or blocked stage,
then `not_started*`. -/
def InOrder (v : View) : Prop :=
  ∃ done present todo, v.statuses =
      List.replicate done .complete ++ present ++ List.replicate todo .notStarted ∧
    (present = [] ∨ present = [.active] ∨ present = [.blocked])

theorem Ordered.inOrder {v : View} (h : v.Ordered) : v.InOrder := by
  obtain ⟨hprecedes, hknown⟩ := h
  unfold InOrder
  generalize v.statuses = statuses at hprecedes hknown
  induction statuses with
  | nil => exact ⟨0, [], 0, rfl, Or.inl rfl⟩
  | cons head rest ih =>
      rw [List.pairwise_cons] at hprecedes
      obtain ⟨hhead, hrest⟩ := hprecedes
      by_cases hcomplete : head = .complete
      · obtain ⟨done, present, todo, heq, hpresent⟩ :=
          ih hrest fun status hstatus => hknown status (by simp [hstatus])
        refine ⟨done + 1, present, todo, ?_, hpresent⟩
        rw [heq, hcomplete, List.replicate_succ, List.cons_append, List.cons_append]
      · have htodo : rest = List.replicate rest.length .notStarted := by
          apply List.eq_replicate_of_mem
          intro status hstatus
          by_contra hne
          exact hcomplete (hhead status hstatus hne)
        rcases hknown head (by simp) with heq | heq | heq | heq
        · exact absurd heq hcomplete
        · refine ⟨0, [.active], rest.length, ?_, Or.inr (Or.inl rfl)⟩
          rw [← htodo, heq]
          rfl
        · refine ⟨0, [.blocked], rest.length, ?_, Or.inr (Or.inr rfl)⟩
          rw [← htodo, heq]
          rfl
        · refine ⟨0, [], rest.length + 1, ?_, Or.inl rfl⟩
          rw [List.replicate_succ, ← htodo, heq]
          rfl

/-- Changing the status of a stage keeps the order when everything before it
is complete and it was not. -/
private theorem Ordered.set {v : View} (h : v.Ordered) {stageId : String}
    {before rest : List (String × StageStatus)} {old new : StageStatus}
    (hsplit : v.stages = before ++ (stageId, old) :: rest)
    (hbefore : ∀ entry ∈ before, entry.2 = .complete) (hold : old ≠ .complete)
    (hnew : new = .complete ∨ new = .active ∨ new = .blocked ∨ new = .notStarted)
    (current : Option String) : Ordered ⟨before ++ (stageId, new) :: rest, current⟩ := by
  have hprecedes := h.precedes
  have hknown := h.known
  simp only [statuses, hsplit, List.map_append, List.map_cons, List.pairwise_append,
    List.pairwise_cons, List.mem_cons, List.mem_append] at hprecedes hknown
  obtain ⟨hfirst, ⟨hhead, hrest⟩, hcross⟩ := hprecedes
  refine ⟨?_, ?_⟩
  · simp only [statuses, List.map_append, List.map_cons, List.pairwise_append,
      List.pairwise_cons, List.mem_cons]
    refine ⟨hfirst, ⟨?_, hrest⟩, ?_⟩
    · intro status hstatus hne
      exact absurd (hhead status hstatus hne) hold
    · intro a ha b _ _
      obtain ⟨entry, hentry, rfl⟩ := List.mem_map.mp ha
      exact hbefore entry hentry
  · intro status hstatus
    simp only [statuses, List.map_append, List.map_cons, List.mem_append,
      List.mem_cons] at hstatus
    rcases hstatus with hstatus | rfl | hstatus
    · exact hknown status (Or.inl hstatus)
    · exact hnew
    · exact hknown status (Or.inr (Or.inr hstatus))

/-- Everything before a stage that is not `not_started` is complete. -/
private theorem Ordered.before {v : View} (h : v.Ordered) {stageId : String}
    {before rest : List (String × StageStatus)} {status : StageStatus}
    (hsplit : v.stages = before ++ (stageId, status) :: rest) (hstatus : status ≠ .notStarted) :
    ∀ entry ∈ before, entry.2 = .complete := by
  intro entry hentry
  have hprecedes := h.precedes
  simp only [statuses, hsplit, List.map_append, List.map_cons, List.pairwise_append,
    List.mem_cons] at hprecedes
  exact hprecedes.2.2 entry.2 (List.mem_map_of_mem hentry) status (Or.inl rfl) hstatus

/-- The step lemma: every enabled transition but an override keeps the order. -/
theorem Ordered.apply {v : View} (h : v.Ordered) {t : Transition} (ht : v.Enabled t)
    (hoverride : ∀ stageId, t ≠ .overridden stageId) : (t.apply v).Ordered := by
  cases t with
  | started stageId =>
      obtain ⟨before, status, rest, hsplit, hfresh, hactive, hcomplete, hprevious⟩ :=
        CanStart.startable ht
      have hbefore : ∀ entry ∈ before, entry.2 = .complete := by
        rcases List.eq_nil_or_concat' before with rfl | ⟨init, last, rfl⟩
        · simp
        · have hlast := hprevious last (by simp)
          have hsplit' : v.stages = init ++ (last.1, last.2) :: (stageId, status) :: rest := by
            rw [hsplit, List.append_assoc]
            rfl
          have hinit := h.before hsplit' (by rw [hlast]; decide)
          intro entry hentry
          rcases List.mem_append.mp hentry with hentry | hentry
          · exact hinit entry hentry
          · rw [List.mem_singleton.mp hentry]
            exact hlast
      simp only [Transition.apply, Dict.set_of_split hsplit hfresh]
      exact h.set hsplit hbefore hcomplete (by simp) _
  | completed stageId =>
      obtain ⟨before, rest, hsplit, hfresh⟩ := Dict.split_of_get? ht
      simp only [Transition.apply, Dict.set_of_split hsplit hfresh]
      exact h.set hsplit (h.before hsplit (by decide)) (by decide) (by simp) _
  | blocked stageId =>
      obtain ⟨before, rest, hsplit, hfresh⟩ := Dict.split_of_get? ht
      simp only [Transition.apply, Dict.set_of_split hsplit hfresh]
      exact h.set hsplit (h.before hsplit (by decide)) (by decide) (by simp) _
  | overridden stageId => exact absurd rfl (hoverride stageId)

end View

end ForgeOS
