import ForgeOS.Datetime
import ForgeOS.Observer.Monitor

/-!
`cleanup_stale_sessions` of the monitor: on every installed agent the sessions
that are too old are closed. An agent that cannot be reached is an error of its
own, and its client is stopped on every path. The age of a session is computed
outside of all that.
-/

namespace ForgeOS

open Library

/-- A session as its agent lists it, and how closing it ends. -/
structure SessionInfo where
  id : Json
  metadata : Json
  close : Except String Unit := .ok ()

/-- An installed agent in `cleanup_stale_sessions`: its record, how making its
client ends, what starting it and listing its sessions gives, and how `_alert`
ends. -/
structure AgentSessions where
  agent : Json
  client : Except ObserverFault Unit := .ok ()
  sessions : Except String (List SessionInfo)
  alert : Except ObserverFault Unit := .ok ()

def AgentSessions.listed (visit : AgentSessions) : List SessionInfo :=
  match visit.sessions with
  | .error _ => []
  | .ok sessions => sessions

structure CleanupReport where
  checked : Nat := 0
  closed : Nat := 0
  errors : Nat := 0
deriving DecidableEq, Repr

/-- What has been done so far: the agents that were looked at, the sessions
that were to be closed with their agents, and the agents whose clients were
stopped. -/
structure CleanupLog where
  examined : List Json := []
  closes : List (Json × Json) := []
  stopped : List Json := []
deriving Repr

/-- A `cleanup_stale_sessions` call: the clock and the installed agents. -/
structure Cleanup where
  now : Except ObserverFault String
  installed : Except ObserverFault (List AgentSessions)

namespace ObserverMonitor

abbrev CleanupEffect := Effect CleanupLog ObserverFault

section Cleanup

variable (str : Json → String) (fromisoformat : String → Option PyDatetime) (rnd : Rounding)
  (maxAge : PyFloat)

/-- `_parse_timestamp`, which accepts the suffix `Z`; a `ValueError` otherwise. -/
def parseTimestamp (value : String) : Option PyDatetime :=
  fromisoformat (String.ofList
    (value.toList.flatMap fun c => if c = 'Z' then "+00:00".toList else [c]))

/-- `metadata.get("updated_at") or metadata.get("created_at")` -/
def rawTimestamp (metadata : Json) : Option Json := do
  let updatedAt ← metadata.get? "updated_at"
  let createdAt ← metadata.get? "created_at"
  return updatedAt.or createdAt

/-- `_session_age_seconds`. A timestamp that cannot be parsed is caught, one
that cannot be subtracted is not. -/
def sessionAgeSeconds (now : PyDatetime) (session : SessionInfo) :
    Except ObserverFault (Option PyFloat) :=
  match rawTimestamp session.metadata with
  | none => .error (.noGet session.metadata.typeName)
  | some raw =>
      if !raw.truthy then .ok none
      else
        match parseTimestamp fromisoformat (str raw) with
        | none => .ok none
        | some moment =>
            match now.since? moment with
            | none => .error (.raised "can't subtract offset-naive and offset-aware datetimes")
            | some micros => .ok (some (totalSeconds rnd micros))

/-- The body of the loop over the sessions of an agent. -/
def cleanupSession (now : PyDatetime) (agent : Json) (report : CleanupReport)
    (session : SessionInfo) : CleanupEffect CleanupReport := do
  let report := { report with checked := report.checked + 1 }
  match ← Effect.ofExcept (sessionAgeSeconds str fromisoformat rnd now session) with
  | none => return report
  | some age =>
      if age.le maxAge then return report
      else
        modify fun log => { log with closes := log.closes ++ [(agent, session.id)] }
        match session.close with
        | .ok _ => return { report with closed := report.closed + 1 }
        | .error _ => return { report with errors := report.errors + 1 }

/-- The `try` of an agent, its client being there. -/
def cleanupSessions (now : PyDatetime) (report : CleanupReport) (visit : AgentSessions) :
    CleanupEffect CleanupReport :=
  match visit.sessions with
  | .error _ => do
      Effect.ofExcept visit.alert
      return { report with errors := report.errors + 1 }
  | .ok sessions =>
      sessions.foldlM (cleanupSession str fromisoformat rnd maxAge now visit.agent) report

/-- The body of the loop over the agents. -/
def cleanupAgent (now : PyDatetime) (report : CleanupReport) (visit : AgentSessions) :
    CleanupEffect CleanupReport := do
  let _ ← Effect.ofExcept (agentId str visit.agent)
  Effect.ofExcept visit.client
  modify fun log => { log with examined := log.examined ++ [visit.agent] }
  (cleanupSessions str fromisoformat rnd maxAge now report visit).ensuring
    fun log => { log with stopped := log.stopped ++ [visit.agent] }

def cleanupMoment (call : Cleanup) : Except ObserverFault PyDatetime := do
  let now ← call.now
  match parseTimestamp fromisoformat now with
  | none => .error (.raised s!"Invalid isoformat string: '{now}'")
  | some moment => .ok moment

/-- Close sessions older than the stale threshold on every installed agent. -/
def cleanupStaleSessions (call : Cleanup) : CleanupEffect CleanupReport := do
  let now ← Effect.ofExcept (cleanupMoment fromisoformat call)
  let visits ← Effect.ofExcept call.installed
  visits.foldlM (cleanupAgent str fromisoformat rnd maxAge now) {}

/-! ### What a session and an agent may report -/

/-- The metadata is a mapping, and the timestamp in it, if it is one, has a time
zone just as the clock has. -/
def Ageable (now : PyDatetime) (session : SessionInfo) : Prop :=
  (∃ entries, session.metadata = .obj entries) ∧
    ∀ raw, rawTimestamp session.metadata = some raw → raw.truthy = true →
      ∀ moment, parseTimestamp fromisoformat (str raw) = some moment →
        now.isAware = moment.isAware

/-- The record is a mapping, its client can be made, and either the agent lists
sessions that are ageable or the alert can be given. -/
def Manageable (now : PyDatetime) (visit : AgentSessions) : Prop :=
  (∃ entries, visit.agent = .obj entries) ∧ visit.client.isOk = true ∧
    match visit.sessions with
    | .error _ => visit.alert.isOk = true
    | .ok sessions => ∀ session ∈ sessions, Ageable str fromisoformat now session

/-- The clock and the registry can be read, and every agent is manageable. -/
def Containable (call : Cleanup) : Prop :=
  ∃ now visits, cleanupMoment fromisoformat call = .ok now ∧ call.installed = .ok visits ∧
    ∀ visit ∈ visits, Manageable str fromisoformat now visit

/-- The session is closed. -/
def stale (now : PyDatetime) (session : SessionInfo) : Bool :=
  match sessionAgeSeconds str fromisoformat rnd now session with
  | .ok (some age) => !age.le maxAge
  | _ => false

/-- The age of the session is known and exceeds the maximum. -/
def exceeds (now : PyDatetime) (session : SessionInfo) : Bool :=
  match sessionAgeSeconds str fromisoformat rnd now session with
  | .ok (some age) => maxAge.lt age
  | _ => false

def sessionsOf (visits : List AgentSessions) (test : SessionInfo → Bool) : List (Json × Json) :=
  visits.flatMap fun visit =>
    (visit.listed.filter test).map fun session => (visit.agent, session.id)

/-- The call returns; it has looked at every agent, has set out to close every
session whose known age exceeds the maximum, and has stopped every client. -/
def Contained (call : Cleanup) (result : Except ObserverFault CleanupReport × CleanupLog) :
    Prop :=
  ∃ now visits, cleanupMoment fromisoformat call = .ok now ∧ call.installed = .ok visits ∧
    result.1.isOk = true ∧
    result.2.examined = visits.map AgentSessions.agent ∧
    (sessionsOf visits (exceeds str fromisoformat rnd maxAge now)).Sublist result.2.closes ∧
    result.2.stopped = visits.map AgentSessions.agent

theorem rawTimestamp_isSome_iff (metadata : Json) :
    (rawTimestamp metadata).isSome = true ↔ ∃ entries, metadata = .obj entries := by
  cases metadata <;> simp [rawTimestamp, Json.get?, Json.getOr?]

theorem agentId_isOk_iff (agent : Json) :
    (agentId str agent).isOk = true ↔ ∃ entries, agent = .obj entries := by
  cases agent with
  | obj entries => exact iff_of_true rfl ⟨entries, rfl⟩
  | null | bool | int | float | str | arr =>
      refine iff_of_false Bool.false_ne_true ?_
      rintro ⟨entries, h⟩
      cases h

/-- The age of a session is computed exactly if the session is ageable. -/
theorem sessionAgeSeconds_isOk_iff (now : PyDatetime) (session : SessionInfo) :
    (sessionAgeSeconds str fromisoformat rnd now session).isOk = true ↔
      Ageable str fromisoformat now session := by
  unfold sessionAgeSeconds Ageable
  rw [← rawTimestamp_isSome_iff]
  cases hraw : rawTimestamp session.metadata with
  | none => exact iff_of_false Bool.false_ne_true fun h => Bool.false_ne_true h.1
  | some raw =>
      simp only [Option.isSome_some, Option.some.injEq, true_and, forall_eq']
      cases raw.truthy with
      | false => exact iff_of_true rfl fun h => absurd h Bool.false_ne_true
      | true =>
          cases parseTimestamp fromisoformat (str raw) with
          | none =>
              refine iff_of_true rfl fun _ moment h => ?_
              cases h
          | some moment =>
              simp only [Option.some.injEq, forall_eq', forall_const]
              rw [← PyDatetime.since?_isSome_iff]
              cases now.since? moment with
              | none => exact iff_of_false Bool.false_ne_true Bool.false_ne_true
              | some micros => exact iff_of_true rfl rfl

/-- What exceeds the maximum is not below it. -/
theorem stale_of_exceeds (now : PyDatetime) (session : SessionInfo)
    (h : exceeds str fromisoformat rnd maxAge now session = true) :
    stale str fromisoformat rnd maxAge now session = true := by
  unfold exceeds at h
  unfold stale
  split at h
  · rw [PyFloat.not_le_of_lt h]
    rfl
  · cases h

theorem sessionsOf_sublist {test other : SessionInfo → Bool}
    (h : ∀ session, test session = true → other session = true) (visits : List AgentSessions) :
    (sessionsOf visits test).Sublist (sessionsOf visits other) := by
  induction visits with
  | nil => exact List.Sublist.refl _
  | cons visit rest ih =>
      have hlisted := List.monotone_filter_right visit.listed h
      exact (hlisted.map _).append ih

/-! ### The loops -/

def logSession (now : PyDatetime) (agent : Json) (log : CleanupLog) (session : SessionInfo) :
    CleanupLog :=
  if stale str fromisoformat rnd maxAge now session then
    { log with closes := log.closes ++ [(agent, session.id)] }
  else log

def logAgent (now : PyDatetime) (log : CleanupLog) (visit : AgentSessions) : CleanupLog where
  examined := log.examined ++ [visit.agent]
  closes := log.closes ++ sessionsOf [visit] (stale str fromisoformat rnd maxAge now)
  stopped := log.stopped ++ [visit.agent]

theorem exec_cleanupSession (now : PyDatetime) (agent : Json) (report : CleanupReport)
    (session : SessionInfo) (log : CleanupLog) :
    ((cleanupSession str fromisoformat rnd maxAge now agent report session).exec log).1.isOk =
        (sessionAgeSeconds str fromisoformat rnd now session).isOk ∧
      ((cleanupSession str fromisoformat rnd maxAge now agent report session).exec log).2 =
        logSession str fromisoformat rnd maxAge now agent log session := by
  unfold cleanupSession logSession stale
  rw [Effect.exec_bind, Effect.exec_ofExcept]
  cases sessionAgeSeconds str fromisoformat rnd now session with
  | error fault => exact ⟨rfl, rfl⟩
  | ok age =>
      cases age with
      | none => exact ⟨rfl, rfl⟩
      | some age =>
          cases hage : age.le maxAge with
          | true =>
              simp only [hage, if_true]
              exact ⟨rfl, rfl⟩
          | false =>
              simp only [hage, Bool.false_eq_true, if_false]
              cases session.close with
              | ok _ => exact ⟨rfl, rfl⟩
              | error _ => exact ⟨rfl, rfl⟩

theorem foldl_logSession (now : PyDatetime) (agent : Json) (sessions : List SessionInfo)
    (log : CleanupLog) :
    sessions.foldl (logSession str fromisoformat rnd maxAge now agent) log =
      { log with closes := log.closes ++
          (sessions.filter (stale str fromisoformat rnd maxAge now)).map fun session =>
            (agent, session.id) } := by
  induction sessions generalizing log with
  | nil => rw [List.filter_nil, List.map_nil, List.append_nil, List.foldl_nil]
  | cons session rest ih =>
      rw [List.foldl_cons, ih, List.filter_cons]
      unfold logSession
      split
      · rw [List.map_cons, List.append_assoc]
        rfl
      · rfl

theorem exec_cleanupAgent (now : PyDatetime) (report : CleanupReport) (visit : AgentSessions)
    (log : CleanupLog) :
    (((cleanupAgent str fromisoformat rnd maxAge now report visit).exec log).1.isOk = true ↔
        Manageable str fromisoformat now visit) ∧
      (Manageable str fromisoformat now visit →
        ((cleanupAgent str fromisoformat rnd maxAge now report visit).exec log).2 =
          logAgent str fromisoformat rnd maxAge now log visit) := by
  unfold cleanupAgent Manageable
  rw [← agentId_isOk_iff str]
  simp only [Effect.exec_bind, Effect.exec_ofExcept]
  cases agentId str visit.agent with
  | error fault =>
      exact ⟨iff_of_false Bool.false_ne_true fun h => Bool.false_ne_true h.1,
        fun h => absurd h.1 Bool.false_ne_true⟩
  | ok id =>
      cases visit.client with
      | error fault =>
          exact ⟨iff_of_false Bool.false_ne_true fun h => Bool.false_ne_true h.2.1,
            fun h => absurd h.2.1 Bool.false_ne_true⟩
      | ok _ =>
          simp only [Effect.exec_modify, Effect.exec_ensuring, cleanupSessions, logAgent,
            sessionsOf, AgentSessions.listed, List.flatMap_cons, List.flatMap_nil]
          cases visit.sessions with
          | error _ =>
              dsimp only
              rw [Effect.exec_bind, Effect.exec_ofExcept]
              cases visit.alert with
              | error fault =>
                  exact ⟨iff_of_false Bool.false_ne_true fun h => Bool.false_ne_true h.2.2,
                    fun h => absurd h.2.2 Bool.false_ne_true⟩
              | ok _ =>
                  refine ⟨iff_of_true rfl ⟨rfl, rfl, rfl⟩, fun _ => ?_⟩
                  simp
          | ok sessions =>
              dsimp only
              have hloop := Effect.exec_foldlM_isOk_iff
                (P := Ageable str fromisoformat now)
                (f := cleanupSession str fromisoformat rnd maxAge now visit.agent)
                (g := logSession str fromisoformat rnd maxAge now visit.agent)
                (fun report session log => by
                  rw [(exec_cleanupSession ..).1, sessionAgeSeconds_isOk_iff])
                (fun report session log _ => (exec_cleanupSession ..).2) sessions report
                { log with examined := log.examined ++ [visit.agent] }
              refine ⟨hloop.1.trans ⟨fun h => ⟨rfl, rfl, h⟩, fun h => h.2.2⟩, fun h => ?_⟩
              rw [hloop.2 h.2.2, foldl_logSession, List.append_nil]

theorem foldl_logAgent (now : PyDatetime) (visits : List AgentSessions) (log : CleanupLog) :
    visits.foldl (logAgent str fromisoformat rnd maxAge now) log =
      { examined := log.examined ++ visits.map AgentSessions.agent
        closes := log.closes ++ sessionsOf visits (stale str fromisoformat rnd maxAge now)
        stopped := log.stopped ++ visits.map AgentSessions.agent } := by
  induction visits generalizing log with
  | nil => simp [sessionsOf]
  | cons visit rest ih => simp [ih, logAgent, sessionsOf]

/-- Every agent is looked at and stopped and every session that is too old is
closed, with nothing raised, exactly if the clock and the registry can be read
and every agent is manageable. The age of a session is taken outside of what is
guarded. -/
theorem contained_iff (call : Cleanup) :
    Contained str fromisoformat rnd maxAge call
        ((cleanupStaleSessions str fromisoformat rnd maxAge call).exec {}) ↔
      Containable str fromisoformat call := by
  unfold Contained Containable cleanupStaleSessions
  simp only [Effect.exec_bind, Effect.exec_ofExcept]
  cases hmoment : cleanupMoment fromisoformat call with
  | error fault => simp
  | ok now =>
      cases hinstalled : call.installed with
      | error fault => simp
      | ok visits =>
          obtain ⟨hreturns, hlog⟩ := Effect.exec_foldlM_isOk_iff
            (P := Manageable str fromisoformat now)
            (f := cleanupAgent str fromisoformat rnd maxAge now)
            (g := logAgent str fromisoformat rnd maxAge now)
            (fun report visit log => (exec_cleanupAgent ..).1)
            (fun report visit log => (exec_cleanupAgent ..).2) visits {} {}
          dsimp only
          constructor
          · rintro ⟨now', visits', -, -, hok, -⟩
            exact ⟨now, visits, rfl, rfl, hreturns.mp hok⟩
          · rintro ⟨now', visits', hnow, hvisits, hall⟩
            obtain rfl := Except.ok.inj hnow
            obtain rfl := Except.ok.inj hvisits
            have hclosed := sessionsOf_sublist
              (stale_of_exceeds str fromisoformat rnd maxAge now) visits
            refine ⟨now, visits, rfl, rfl, hreturns.mpr hall, ?_⟩
            rw [hlog hall, foldl_logAgent]
            exact ⟨rfl, hclosed, rfl⟩

end Cleanup

/-- What `datetime.fromisoformat` makes of two texts. -/
def noonIsoformat (value : String) : Option PyDatetime :=
  if value = "2026-01-01T12:00:00+00:00" then some (.aware 1767268800000000)
  else if value = "2026-01-01T00:00:00" then some (.naive 1767225600000000)
  else none

/-- An agent whose timestamp has no time zone, in front of another one. -/
def cleanupAtNoon : Cleanup where
  now := .ok "2026-01-01T12:00:00Z"
  installed := .ok
    [{ agent := .obj [("id", .str "agent-a")]
       sessions := .ok [{
         id := .str "session-1"
         metadata := .obj [("updated_at", .str "2026-01-01T00:00:00")] }] },
     { agent := .obj [("id", .str "agent-b")]
       sessions := .ok [] }]

/-- That timestamp keeps the other agent from being looked at. -/
theorem not_contained :
    ¬ ∀ (str : Json → String) (fromisoformat : String → Option PyDatetime) (rnd : Rounding)
        (maxAge : PyFloat) (call : Cleanup), Contained str fromisoformat rnd maxAge call
          ((cleanupStaleSessions str fromisoformat rnd maxAge call).exec {}) := by
  intro h
  obtain ⟨_, _, -, -, hreturns, -⟩ := h (fun value => value.str?.getD "") noonIsoformat exactly
    (.finite 3600) cleanupAtNoon
  revert hreturns
  decide

end ObserverMonitor

end ForgeOS
