import ForgeOS.Library.Effect
import Mathlib.Data.List.Induction
import Mathlib.Data.List.Nodup

/-!
The identities that the senders of a channel are bound to. A sender is given a
code, and is bound by the operator who confirms it; the pending and the bound
identities stand in one list, `.forge/channels/identities.json`.
-/

namespace ForgeOS

open Library

/-- Binding between a channel sender and a Forge identity. -/
structure ChannelIdentity where
  channelId : String
  sender : String
  forgeIdentity : Option String := none
  bound : Bool := false
  pairingCode : Option String := none
deriving DecidableEq, Repr

/-- What an identity is looked up by. -/
abbrev SenderKey := String × String

def ChannelIdentity.key (identity : ChannelIdentity) : SenderKey :=
  (identity.channelId, identity.sender)

/-- The identities of a project, without a file none. -/
abbrev ChannelIdentities := List ChannelIdentity

/-- A `ChannelAlreadyBoundError`. -/
structure ChannelAlreadyBound where
  message : String
deriving DecidableEq, Repr

namespace ChannelIdentityStore

abbrev IdentityEffect := Effect ChannelIdentities ChannelAlreadyBound

def get (identities : ChannelIdentities) (channelId sender : String) : Option ChannelIdentity :=
  identities.find? fun identity => identity.channelId = channelId ∧ identity.sender = sender

def isBound (identities : ChannelIdentities) (channelId sender : String) : Bool :=
  match get identities channelId sender with
  | some identity => identity.bound
  | none => false

def upsert (identities : ChannelIdentities) (identity : ChannelIdentity) : ChannelIdentities :=
  (identities.filter fun existing =>
    ¬(existing.channelId = identity.channelId ∧ existing.sender = identity.sender)) ++ [identity]

/-- `begin_pairing(channel_id, sender)`; `code` is what `uuid4().hex[:8]`
gives. -/
def beginPairing (channelId sender code : String) : IdentityEffect String := do
  if isBound (← MonadState.get) channelId sender then
    throw ⟨s!"'{sender}' on '{channelId}' is already bound; unbind before re-pairing"⟩
  modify fun identities => upsert identities
    { channelId, sender, bound := false, pairingCode := some code }
  return code

def confirm (channelId sender pairingCode forgeIdentity : String) : IdentityEffect Bool := do
  match get (← MonadState.get) channelId sender with
  | none => return false
  | some identity =>
      if identity.pairingCode ≠ some pairingCode then return false
      else
        modify fun identities => upsert identities
          { identity with
            bound := true
            forgeIdentity := some forgeIdentity
            pairingCode := none }
        return true

/-- A call on the store, with the code that `begin_pairing` is to issue. -/
inductive PairingCall where
  | beginPairing (channelId sender code : String)
  | confirm (channelId sender pairingCode forgeIdentity : String)
deriving DecidableEq, Repr

/-- A call, whether it returns or raises. -/
def step (identities : ChannelIdentities) : PairingCall → ChannelIdentities
  | .beginPairing channelId sender code =>
      ((ChannelIdentityStore.beginPairing channelId sender code).exec identities).2
  | .confirm channelId sender pairingCode forgeIdentity =>
      ((ChannelIdentityStore.confirm channelId sender pairingCode forgeIdentity).exec
        identities).2

def issuedBy (identities : ChannelIdentities) : PairingCall → List (SenderKey × String)
  | .beginPairing channelId sender code =>
      match ((ChannelIdentityStore.beginPairing channelId sender code).exec identities).1 with
      | .ok issued => [((channelId, sender), issued)]
      | .error _ => []
  | .confirm .. => []

def boundBy (identities : ChannelIdentities) : PairingCall → List (SenderKey × String)
  | .beginPairing .. => []
  | .confirm channelId sender pairingCode forgeIdentity =>
      match ((ChannelIdentityStore.confirm channelId sender pairingCode forgeIdentity).exec
        identities).1 with
      | .ok true => [((channelId, sender), pairingCode)]
      | _ => []

/-- The codes issued by the calls, and to whom. -/
def issued (calls : List PairingCall) : List (SenderKey × String) := collect step issuedBy [] calls

/-- The codes that have bound a sender, and whom. -/
def bindings (calls : List PairingCall) : List (SenderKey × String) := collect step boundBy [] calls

/-- The code that the latest `begin_pairing` of a sender has issued. -/
def latestCode (calls : List PairingCall) (key : SenderKey) : Option String :=
  (((issued calls).filter fun code => code.1 = key).getLast?).map Prod.snd

/-! ### One call -/

section Lookup

variable {identities : ChannelIdentities} {identity : ChannelIdentity} {channelId sender : String}

theorem get_eq (identities : ChannelIdentities) (channelId sender : String) :
    get identities channelId sender =
      identities.find? fun identity => identity.key = (channelId, sender) := by
  simp only [get, ChannelIdentity.key, Prod.mk.injEq]

theorem upsert_eq (identities : ChannelIdentities) (identity : ChannelIdentity) :
    upsert identities identity =
      identities.filter (fun existing => existing.key ≠ identity.key) ++ [identity] := by
  simp only [upsert, ChannelIdentity.key, ne_eq, Prod.mk.injEq]

theorem key_of_get (h : get identities channelId sender = some identity) :
    identity.key = (channelId, sender) := by
  rw [get_eq] at h
  simpa using List.find?_some h

theorem mem_of_get (h : get identities channelId sender = some identity) :
    identity ∈ identities := List.mem_of_find?_eq_some h

/-- What is looked up after an identity has been put in its place. -/
theorem get_upsert (identities : ChannelIdentities) (identity : ChannelIdentity)
    (channelId sender : String) :
    get (upsert identities identity) channelId sender =
      if identity.key = (channelId, sender) then some identity
      else get identities channelId sender := by
  rw [get_eq, get_eq, upsert_eq, List.find?_append, List.find?_filter]
  by_cases hkey : identity.key = (channelId, sender)
  · rw [if_pos hkey, hkey, List.find?_eq_none.mpr (by simp), Option.none_or]
    simp [hkey]
  · have hsame : (fun existing : ChannelIdentity => decide
        (decide (existing.key ≠ identity.key) = true ∧
          decide (existing.key = (channelId, sender)) = true)) =
        fun existing => decide (existing.key = (channelId, sender)) := by
      funext existing
      grind
    rw [if_neg hkey, hsame]
    simp [hkey]

theorem keys_upsert (h : (identities.map ChannelIdentity.key).Nodup)
    (identity : ChannelIdentity) :
    ((upsert identities identity).map ChannelIdentity.key).Nodup := by
  rw [upsert_eq, List.map_append, List.nodup_append]
  refine ⟨h.sublist (List.filter_sublist.map _), by simp, ?_⟩
  intro key hkey other hother heq
  obtain ⟨existing, hexisting, rfl⟩ := List.mem_map.mp hkey
  obtain rfl := List.mem_singleton.mp hother
  exact of_decide_eq_true (List.mem_filter.mp hexisting).2 heq

/-- Another sender's identity stays. -/
theorem mem_upsert {other : ChannelIdentity} (h : identity ∈ identities)
    (hkey : identity.key ≠ other.key) : identity ∈ upsert identities other := by
  rw [upsert_eq]
  exact List.mem_append_left _ (List.mem_filter.mpr ⟨h, decide_eq_true hkey⟩)

/-- Where the keys are distinct, what stands in the list is what is looked up. -/
theorem get_of_mem (hnodup : (identities.map ChannelIdentity.key).Nodup)
    (h : identity ∈ identities) : get identities identity.channelId identity.sender =
      some identity := by
  rw [get_eq]
  induction identities with
  | nil => cases h
  | cons first rest ih =>
      rw [List.map_cons, List.nodup_cons] at hnodup
      rcases List.mem_cons.mp h with rfl | hrest
      · exact List.find?_cons_of_pos (decide_eq_true rfl)
      · have hother : ¬first.key = identity.key := fun heq =>
          hnodup.1 (heq ▸ List.mem_map_of_mem hrest)
        rw [List.find?_cons_of_neg (by simpa [ChannelIdentity.key] using hother)]
        exact ih hnodup.2 hrest

end Lookup

/-- Pairing is refused where the sender is bound, and otherwise replaces its
identity. -/
theorem exec_beginPairing (channelId sender code : String) (identities : ChannelIdentities) :
    (beginPairing channelId sender code).exec identities =
      if isBound identities channelId sender = true then
        (.error ⟨s!"'{sender}' on '{channelId}' is already bound; unbind before re-pairing"⟩,
          identities)
      else (.ok code, upsert identities
        { channelId, sender, bound := false, pairingCode := some code }) := by
  rw [beginPairing, Effect.exec_bind_ok _ (Effect.exec_get identities)]
  split <;> rfl

theorem exec_confirm_none {identities : ChannelIdentities} {channelId sender : String}
    (h : get identities channelId sender = none) (pairingCode forgeIdentity : String) :
    (confirm channelId sender pairingCode forgeIdentity).exec identities =
      (.ok false, identities) := by
  rw [confirm, Effect.exec_bind_ok _ (Effect.exec_get identities), h]
  rfl

theorem exec_confirm {identities : ChannelIdentities} {channelId sender : String}
    {identity : ChannelIdentity} (h : get identities channelId sender = some identity)
    (pairingCode forgeIdentity : String) :
    (confirm channelId sender pairingCode forgeIdentity).exec identities =
      if identity.pairingCode ≠ some pairingCode then (.ok false, identities)
      else (.ok true, upsert identities
        { identity with
          bound := true
          forgeIdentity := some forgeIdentity
          pairingCode := none }) := by
  rw [confirm, Effect.exec_bind_ok _ (Effect.exec_get identities), h]
  dsimp only
  split <;> rfl

/-! ### Runs -/

/-- A confirmation of a sender by the code issued to it last. -/
def Confirmed (calls : List PairingCall) (channelId sender : String) : Prop :=
  ∃ before code forgeIdentity after,
    calls = before ++ .confirm channelId sender code forgeIdentity :: after ∧
      latestCode before (channelId, sender) = some code

theorem confirmed_snoc {calls : List PairingCall} {call : PairingCall}
    {channelId sender : String} : Confirmed (calls ++ [call]) channelId sender ↔
      Confirmed calls channelId sender ∨ ∃ code forgeIdentity,
        call = .confirm channelId sender code forgeIdentity ∧
          latestCode calls (channelId, sender) = some code := by
  constructor
  · rintro ⟨before, code, forgeIdentity, after, hcalls, hlatest⟩
    rcases List.eq_nil_or_concat after with rfl | ⟨after, last, rfl⟩
    · rw [← List.concat_eq_append, ← List.concat_eq_append] at hcalls
      obtain ⟨rfl, rfl⟩ := List.concat_inj.mp hcalls
      exact .inr ⟨code, forgeIdentity, rfl, hlatest⟩
    · rw [List.concat_eq_append, ← List.cons_append, ← List.append_assoc] at hcalls
      obtain ⟨rfl, -⟩ := List.append_singleton_inj.mp hcalls
      exact .inl ⟨before, code, forgeIdentity, after, rfl, hlatest⟩
  · rintro (⟨before, code, forgeIdentity, after, rfl, hlatest⟩ |
      ⟨code, forgeIdentity, rfl, hlatest⟩)
    · exact ⟨before, code, forgeIdentity, after ++ [call], by simp, hlatest⟩
    · exact ⟨calls, code, forgeIdentity, [], rfl, hlatest⟩

/-- What the store tells of the calls that have been made. -/
structure Paired (calls : List PairingCall) (identities : ChannelIdentities) : Prop where
  distinct : (identities.map ChannelIdentity.key).Nodup
  absent : ∀ channelId sender, get identities channelId sender = none →
    latestCode calls (channelId, sender) = none
  pending : ∀ channelId sender identity, get identities channelId sender = some identity →
    identity.bound = false → identity.pairingCode = latestCode calls (channelId, sender)
  spent : ∀ identity ∈ identities, identity.bound = true → identity.pairingCode = none
  bound : ∀ channelId sender,
    isBound identities channelId sender = true ↔ Confirmed calls channelId sender

/-- No code has bound twice, and none that is pending has bound. -/
structure CodesOnce (codes used : List (SenderKey × String)) (identities : ChannelIdentities) :
    Prop where
  used_issued : ∀ binding ∈ used, binding ∈ codes
  pending_issued : ∀ identity ∈ identities, ∀ code, identity.pairingCode = some code →
    (identity.key, code) ∈ codes
  pending_fresh : ∀ identity ∈ identities, ∀ code, identity.pairingCode = some code →
    (identity.key, code) ∉ used
  once : (used.map Prod.snd).Nodup

/-- What a call does to the store, and to the history of codes. -/
inductive CallOutcome (identities : ChannelIdentities) (call : PairingCall) : Prop where
  | ignored (hstep : step identities call = identities) (hissued : issuedBy identities call = [])
      (hbound : boundBy identities call = [])
      (huseless : ∀ channelId sender code forgeIdentity,
        call = .confirm channelId sender code forgeIdentity →
          ∀ identity, get identities channelId sender = some identity →
            identity.pairingCode ≠ some code)
  | issues (channelId sender code : String) (hcall : call = .beginPairing channelId sender code)
      (hfree : isBound identities channelId sender = false)
      (hstep : step identities call = upsert identities
        { channelId, sender, bound := false, pairingCode := some code })
      (hissued : issuedBy identities call = [((channelId, sender), code)])
      (hbound : boundBy identities call = [])
  | binds (identity : ChannelIdentity) (code forgeIdentity : String)
      (hcall : call = .confirm identity.channelId identity.sender code forgeIdentity)
      (hget : get identities identity.channelId identity.sender = some identity)
      (hcode : identity.pairingCode = some code)
      (hstep : step identities call = upsert identities
        { identity with bound := true, forgeIdentity := some forgeIdentity, pairingCode := none })
      (hissued : issuedBy identities call = [])
      (hbound : boundBy identities call = [(identity.key, code)])

theorem callOutcome (identities : ChannelIdentities) (call : PairingCall) :
    CallOutcome identities call := by
  cases call with
  | beginPairing channelId sender code =>
      have hexec := exec_beginPairing channelId sender code identities
      cases hfree : isBound identities channelId sender with
      | true =>
          rw [if_pos hfree] at hexec
          exact .ignored (by rw [step, hexec]) (by rw [issuedBy, hexec]) rfl nofun
      | false =>
          rw [if_neg (by simp [hfree])] at hexec
          exact .issues channelId sender code rfl hfree (by rw [step, hexec])
            (by rw [issuedBy, hexec]) rfl
  | confirm channelId sender code forgeIdentity =>
      cases hget : get identities channelId sender with
      | none =>
          have hexec := exec_confirm_none hget code forgeIdentity
          refine .ignored (by rw [step, hexec]) rfl (by rw [boundBy, hexec]) ?_
          rintro _ _ _ _ ⟨⟩ identity hsome
          cases hget.symm.trans hsome
      | some identity =>
          have hexec := exec_confirm hget code forgeIdentity
          by_cases hcode : identity.pairingCode = some code
          · rw [if_neg (not_not.mpr hcode)] at hexec
            obtain ⟨rfl, rfl⟩ := Prod.mk.inj (key_of_get hget)
            exact .binds identity code forgeIdentity rfl hget hcode (by rw [step, hexec]) rfl
              (by rw [boundBy, hexec]; rfl)
          · rw [if_pos hcode] at hexec
            refine .ignored (by rw [step, hexec]) rfl (by rw [boundBy, hexec]) ?_
            rintro _ _ _ _ ⟨⟩ other hsome
            obtain rfl := Option.some.inj (hget.symm.trans hsome)
            exact hcode

section Histories

variable {calls : List PairingCall} {call : PairingCall}

theorem issued_snoc (calls : List PairingCall) (call : PairingCall) :
    issued (calls ++ [call]) = issued calls ++ issuedBy (run step [] calls) call :=
  collect_snoc step issuedBy [] calls call

theorem bindings_snoc (calls : List PairingCall) (call : PairingCall) :
    bindings (calls ++ [call]) = bindings calls ++ boundBy (run step [] calls) call :=
  collect_snoc step boundBy [] calls call

theorem latestCode_snoc_of_nil (h : issuedBy (run step [] calls) call = []) (key : SenderKey) :
    latestCode (calls ++ [call]) key = latestCode calls key := by
  rw [latestCode, issued_snoc, h, List.append_nil, latestCode]

theorem latestCode_snoc {issuedTo : SenderKey} {code : String}
    (h : issuedBy (run step [] calls) call = [(issuedTo, code)]) (key : SenderKey) :
    latestCode (calls ++ [call]) key =
      if issuedTo = key then some code else latestCode calls key := by
  rw [latestCode, issued_snoc, h, List.filter_append]
  by_cases hkey : issuedTo = key
  · simp [hkey]
  · simp [hkey, latestCode]

end Histories

theorem isBound_upsert (identities : ChannelIdentities) (identity : ChannelIdentity)
    (channelId sender : String) :
    isBound (upsert identities identity) channelId sender =
      if identity.key = (channelId, sender) then identity.bound
      else isBound identities channelId sender := by
  rw [isBound, get_upsert]
  by_cases hkey : identity.key = (channelId, sender)
  · rw [if_pos hkey, if_pos hkey]
  · rw [if_neg hkey, if_neg hkey, isBound]

theorem mem_of_mem_upsert {identities : ChannelIdentities} {identity other : ChannelIdentity}
    (h : identity ∈ upsert identities other) : identity = other ∨
      identity ∈ identities ∧ identity.key ≠ other.key := by
  rw [upsert_eq] at h
  rcases List.mem_append.mp h with hkept | hnew
  · obtain ⟨hmem, hkey⟩ := List.mem_filter.mp hkept
    exact .inr ⟨hmem, of_decide_eq_true hkey⟩
  · exact .inl (List.mem_singleton.mp hnew)

/-- A pending identity is confirmed by the latest code of its sender, and each
call keeps it so. -/
theorem Paired.step {calls : List PairingCall} {identities : ChannelIdentities}
    (hrun : run step [] calls = identities) (h : Paired calls identities) (call : PairingCall) :
    Paired (calls ++ [call]) (step identities call) := by
  cases callOutcome identities call with
  | ignored hstep hissued hbound huseless =>
      have hlatest := latestCode_snoc_of_nil (hrun ▸ hissued)
      rw [hstep]
      refine ⟨h.distinct, ?_, ?_, h.spent, ?_⟩
      · intro channelId sender hget
        rw [hlatest]
        exact h.absent channelId sender hget
      · intro channelId sender identity hget hunbound
        rw [hlatest]
        exact h.pending channelId sender identity hget hunbound
      · intro channelId sender
        rw [confirmed_snoc, h.bound channelId sender]
        refine ⟨.inl, ?_⟩
        rintro (hbefore | ⟨code, forgeIdentity, rfl, hcode⟩)
        · exact hbefore
        · rw [← h.bound channelId sender, isBound]
          cases hget : get identities channelId sender with
          | none => cases (h.absent channelId sender hget).symm.trans hcode
          | some identity =>
              -- unbound, it would have had this code
              dsimp only
              by_contra hunbound
              refine huseless channelId sender code forgeIdentity rfl identity hget ?_
              rw [h.pending channelId sender identity hget (by simpa using hunbound), hcode]
  | issues channelId sender code hcall hfree hstep hissued hbound =>
      have hlatest := latestCode_snoc (hrun ▸ hissued)
      rw [hstep]
      refine ⟨keys_upsert h.distinct _, ?_, ?_, ?_, ?_⟩
      · intro channelId' sender' hget
        rw [get_upsert] at hget
        split at hget
        · cases hget
        · rename_i hkey
          rw [hlatest, if_neg (show ¬(channelId, sender) = _ from hkey)]
          exact h.absent channelId' sender' hget
      · intro channelId' sender' identity hget hunbound
        rw [get_upsert] at hget
        rw [hlatest]
        split at hget
        · rename_i hkey
          obtain rfl := Option.some.inj hget
          rw [if_pos (show (channelId, sender) = _ from hkey)]
        · rename_i hkey
          rw [if_neg (show ¬(channelId, sender) = _ from hkey)]
          exact h.pending channelId' sender' identity hget hunbound
      · intro identity hidentity hbound
        rcases mem_of_mem_upsert hidentity with rfl | ⟨hold, -⟩
        · cases hbound
        · exact h.spent identity hold hbound
      · intro channelId' sender'
        rw [confirmed_snoc, isBound_upsert, ← h.bound channelId' sender']
        have hnone : ¬∃ code forgeIdentity, call = .confirm channelId' sender' code forgeIdentity ∧
            latestCode calls (channelId', sender') = some code := by
          rintro ⟨_, _, hconfirm, -⟩
          cases hcall.symm.trans hconfirm
        simp only [hnone, or_false]
        split
        · rename_i hkey
          obtain ⟨rfl, rfl⟩ := Prod.mk.inj hkey
          rw [hfree]
        · rfl
  | binds identity code forgeIdentity hcall hget hcode hstep hissued hbound =>
      have hlatest := latestCode_snoc_of_nil (hrun ▸ hissued)
      have hunbound : identity.bound = false := by
        by_contra hbound
        cases (h.spent identity (mem_of_get hget) (by simpa using hbound)).symm.trans hcode
      rw [hstep]
      refine ⟨keys_upsert h.distinct _, ?_, ?_, ?_, ?_⟩
      · intro channelId' sender' hnone
        rw [get_upsert] at hnone
        split at hnone
        · cases hnone
        · rw [hlatest]
          exact h.absent channelId' sender' hnone
      · intro channelId' sender' other hother hfree
        rw [get_upsert] at hother
        split at hother
        · obtain rfl := Option.some.inj hother
          cases hfree
        · rw [hlatest]
          exact h.pending channelId' sender' other hother hfree
      · intro other hother hbound
        rcases mem_of_mem_upsert hother with rfl | ⟨hold, -⟩
        · rfl
        · exact h.spent other hold hbound
      · intro channelId' sender'
        rw [confirmed_snoc, isBound_upsert, ← h.bound channelId' sender']
        split
        · rename_i hkey
          obtain ⟨rfl, rfl⟩ := Prod.mk.inj hkey
          refine iff_of_true rfl (.inr ⟨code, forgeIdentity, hcall, ?_⟩)
          exact (h.pending _ _ identity hget hunbound).symm.trans hcode
        · rename_i hkey
          have hnone : ¬∃ code forgeIdentity,
              call = .confirm channelId' sender' code forgeIdentity ∧
                latestCode calls (channelId', sender') = some code := by
            rintro ⟨_, _, hconfirm, -⟩
            cases hcall.symm.trans hconfirm
            exact hkey rfl
          simp only [hnone, or_false]

/-- Two identities a code was issued to are the same. -/
theorem eq_of_code_eq {codes : List (SenderKey × String)} (hcodes : (codes.map Prod.snd).Nodup)
    {key key' : SenderKey} {code : String} (h : (key, code) ∈ codes) (h' : (key', code) ∈ codes) :
    key = key' := by
  have hsame := List.inj_on_of_nodup_map hcodes h h' rfl
  exact congrArg Prod.fst hsame

/-- A code that has bound is gone, as long as no code is issued twice. -/
theorem CodesOnce.step {codes used : List (SenderKey × String)} {identities : ChannelIdentities}
    (h : CodesOnce codes used identities) (call : PairingCall)
    (hcodes : ((codes ++ issuedBy identities call).map Prod.snd).Nodup) :
    CodesOnce (codes ++ issuedBy identities call) (used ++ boundBy identities call)
      (step identities call) := by
  cases callOutcome identities call with
  | ignored hstep hissued hbound huseless =>
      rw [hstep, hissued, hbound, List.append_nil, List.append_nil]
      exact h
  | issues channelId sender code hcall hfree hstep hissued hbound =>
      rw [hissued, List.map_append, List.nodup_append] at hcodes
      rw [hstep, hissued, hbound, List.append_nil]
      refine ⟨fun binding hbinding => List.mem_append_left _ (h.used_issued binding hbinding),
        ?_, ?_, h.once⟩
      · intro identity hidentity other hother
        rcases mem_of_mem_upsert hidentity with rfl | ⟨hold, -⟩
        · obtain rfl := Option.some.inj hother
          exact List.mem_append_right _ (List.mem_singleton_self _)
        · exact List.mem_append_left _ (h.pending_issued identity hold other hother)
      · intro identity hidentity other hother hused
        rcases mem_of_mem_upsert hidentity with rfl | ⟨hold, -⟩
        · -- a new code is none of the issued ones
          obtain rfl := Option.some.inj hother
          exact hcodes.2.2 code (List.mem_map_of_mem (h.used_issued _ hused)) code (by simp) rfl
        · exact h.pending_fresh identity hold other hother hused
  | binds identity code forgeIdentity hcall hget hcode hstep hissued hbound =>
      rw [hissued, List.append_nil] at hcodes
      rw [hstep, hissued, hbound, List.append_nil]
      have hmem := mem_of_get hget
      have hpending := h.pending_issued identity hmem code hcode
      refine ⟨?_, ?_, ?_, ?_⟩
      · intro binding hbinding
        rcases List.mem_append.mp hbinding with hold | hnew
        · exact h.used_issued binding hold
        · rwa [List.mem_singleton.mp hnew]
      · intro other hother otherCode hotherCode
        rcases mem_of_mem_upsert hother with rfl | ⟨hold, -⟩
        · cases hotherCode
        · exact h.pending_issued other hold otherCode hotherCode
      · intro other hother otherCode hotherCode hused
        rcases mem_of_mem_upsert hother with rfl | ⟨hold, hkey⟩
        · cases hotherCode
        · rcases List.mem_append.mp hused with hbefore | hnow
          · exact h.pending_fresh other hold otherCode hotherCode hbefore
          · exact hkey (Prod.mk.inj (List.mem_singleton.mp hnow)).1
      · rw [List.map_append, List.nodup_append]
        refine ⟨h.once, by simp, ?_⟩
        rintro usedCode husedCode _ hnew rfl
        obtain ⟨⟨key, same⟩, hbinding, rfl⟩ := List.mem_map.mp husedCode
        obtain rfl : same = code := List.mem_singleton.mp hnew
        obtain rfl := eq_of_code_eq hcodes (h.used_issued _ hbinding) hpending
        exact h.pending_fresh identity hmem same hcode hbinding

/-- What holds of the store after any calls. -/
theorem paired_run (calls : List PairingCall) : Paired calls (run step [] calls) := by
  induction calls using List.reverseRecOn with
  | nil => exact ⟨List.nodup_nil, fun _ _ _ => rfl, nofun, nofun, by simp [isBound, get, Confirmed]⟩
  | append_singleton calls call ih =>
      rw [run_snoc]
      exact ih.step rfl call

theorem codesOnce_run {calls : List PairingCall} (hcodes : ((issued calls).map Prod.snd).Nodup) :
    CodesOnce (issued calls) (bindings calls) (run step [] calls) := by
  induction calls using List.reverseRecOn with
  | nil => exact ⟨nofun, nofun, nofun, List.nodup_nil⟩
  | append_singleton calls call ih =>
      rw [issued_snoc] at hcodes
      rw [run_snoc, issued_snoc, bindings_snoc]
      have hbefore : ((issued calls).map Prod.snd).Nodup := by
        rw [List.map_append] at hcodes
        exact hcodes.of_append_left
      exact (ih hbefore).step call hcodes

/-- No attempt to pair changes an identity that is bound. -/
theorem mem_step_beginPairing {identities : ChannelIdentities} {identity : ChannelIdentity}
    (hdistinct : (identities.map ChannelIdentity.key).Nodup) (h : identity ∈ identities)
    (hbound : identity.bound = true) (channelId sender code : String) :
    identity ∈ step identities (.beginPairing channelId sender code) := by
  rw [step, exec_beginPairing]
  split
  · exact h
  · rename_i hfree
    apply mem_upsert h
    intro hkey
    obtain ⟨hchannel, hsender⟩ := Prod.mk.inj hkey
    obtain rfl : identity.channelId = channelId := hchannel
    obtain rfl : identity.sender = sender := hsender
    rw [isBound, get_of_mem hdistinct h] at hfree
    exact hfree hbound

/-- After any calls there is one identity for each sender, a sender is bound
exactly if it has been confirmed by the code issued to it last, no code has bound
twice, and no attempt to pair changes what is bound. -/
theorem pairing_by_latest_code (calls : List PairingCall)
    (hcodes : ((issued calls).map Prod.snd).Nodup) :
    ((run step [] calls).map ChannelIdentity.key).Nodup ∧
    (∀ channelId sender, isBound (run step [] calls) channelId sender = true ↔
      Confirmed calls channelId sender) ∧
    ((bindings calls).map Prod.snd).Nodup ∧
    ∀ identity ∈ run step [] calls, identity.bound = true → ∀ channelId sender code,
      identity ∈ step (run step [] calls) (.beginPairing channelId sender code) := by
  have hpaired := paired_run calls
  refine ⟨hpaired.distinct, hpaired.bound, (codesOnce_run hcodes).once, ?_⟩
  intro identity hidentity hbound channelId sender code
  exact mem_step_beginPairing hpaired.distinct hidentity hbound channelId sender code

/-- Two senders of a channel, the first of which is given a second code and
confirmed by it. -/
def demoCalls : List PairingCall := [
  .beginPairing "console" "ann" "c0de0001",
  .beginPairing "console" "bob" "c0de0002",
  .beginPairing "console" "ann" "c0de0003",
  .confirm "console" "ann" "c0de0003" "ann@forge"]

theorem pairing_by_latest_code_demo :
    ((bindings demoCalls).map Prod.snd).Nodup ∧
      isBound (run step [] demoCalls) "console" "ann" = true := by
  have hcodes : ((issued demoCalls).map Prod.snd).Nodup := by decide
  obtain ⟨-, hbound, honce, -⟩ := pairing_by_latest_code demoCalls hcodes
  refine ⟨honce, (hbound "console" "ann").mpr ?_⟩
  exact ⟨demoCalls.take 3, "c0de0003", "ann@forge", [], rfl, by decide⟩

end ChannelIdentityStore

end ForgeOS
