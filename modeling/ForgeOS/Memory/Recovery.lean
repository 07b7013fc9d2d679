import ForgeOS.Memory.GlobalStore
import ForgeOS.Project.Backtrack

/-!
What becomes of the records in a file that cannot be decoded. Both stores
write back the whole file; where a load hides that it failed, the write takes
the place of records nobody has seen.
-/

namespace ForgeOS

open Library

section Stores

variable (κ : Type) [Preorder κ] [Zero κ] [One κ]

/-- The two stores whose load falls back to an empty document. -/
structure Stores where
  backtrack : BacktrackFile
  memory : MemoryFile κ

/-- A call that writes to one of them. -/
inductive StoreCall where
  | createTicket (ticket : BacktrackTicket)
  | updateTicket (ticketId : String) (updates : List TicketUpdate)
  | promoteLesson (stamp : PromotionStamp) (lesson : Lesson κ) (projectPath : String)

end Stores

variable {κ : Type} [Preorder κ] [Zero κ] [One κ]

namespace StoreCall

/-- Make the call. -/
def effect : StoreCall κ → Effect (Stores κ) GlobalStoreError Unit
  | .createTicket ticket => modify fun stores => { stores with
      backtrack := stores.backtrack.createTicket ticket }
  | .updateTicket ticketId updates => modify fun stores => { stores with
      backtrack := (stores.backtrack.updateTicket ticketId updates).2 }
  | .promoteLesson stamp lesson projectPath => do
      let _ ← (ForgeOS.promoteLesson .exact stamp lesson projectPath).within Stores.memory
        fun memory stores => { stores with memory }

/-- A ticket is kept as it is, or the call is an update of it. -/
def Renews (call : StoreCall κ) (ticket ticket' : BacktrackTicket) : Prop :=
  ticket' = ticket ∨ ∃ updates, call = .updateTicket ticket.ticketId updates ∧
    ticket' = ticket.update updates

/-- Every ticket in the file is kept; a file that does not decode is left
alone. -/
def KeepsTickets (call : StoreCall κ) : BacktrackFile → BacktrackFile → Prop
  | .absent, _ => True
  | .undecodable content, after => after = .undecodable content
  | .decoded store, after => Extends call.Renews store.tickets after.load.tickets

end StoreCall

/-- Every lesson and usage record in the file is kept; a file that does not
decode is left alone. -/
def KeepsMemory : MemoryFile κ → MemoryFile κ → Prop
  | .absent, _ => True
  | .blank _, _ => True
  | .decoded document, after => ∃ document', after = .decoded document' ∧
      Extends Eq document.globalLessons document'.globalLessons ∧
      Extends GlobalLessonUsage.Continues document.usage document'.usage
  | before, after => after = before

/-- No recorded item is lost through a call, and a call that raises leaves the
files as they are. -/
structure NothingLost (call : StoreCall κ) (stores : Stores κ) : Prop where
  tickets : call.KeepsTickets stores.backtrack (call.effect.exec stores).2.backtrack
  memory : KeepsMemory stores.memory (call.effect.exec stores).2.memory
  raised : (call.effect.exec stores).1.isOk = false → (call.effect.exec stores).2 = stores

/-- The file has content that does not decode, and `load` hides it. -/
def HidesContent : MemoryFile κ → Prop
  | .invalidYaml _ | .notMapping _ | .invalidDocument _ _ => True
  | .absent | .unreadable _ | .blank _ | .decoded _ => False

/-- A new ticket finds no `backtrack.json` that does not decode, and a promotion
no `memory.yaml` whose failure is hidden. -/
def StoreCall.FindsRecords (stores : Stores κ) : StoreCall κ → Prop
  | .createTicket _ => ∀ content, stores.backtrack ≠ .undecodable content
  | .updateTicket _ _ => True
  | .promoteLesson _ _ _ => ¬ HidesContent stores.memory

private theorem StoreCall.Renews.refl (call : StoreCall κ) (ticket : BacktrackTicket) :
    call.Renews ticket ticket := Or.inl rfl

private theorem StoreCall.keepsTickets_refl (call : StoreCall κ) (file : BacktrackFile) :
    call.KeepsTickets file file := by
  cases file with
  | absent => trivial
  | undecodable content => rfl
  | decoded store => exact .refl (Renews.refl call) _

private theorem keepsMemory_refl (file : MemoryFile κ) : KeepsMemory file file := by
  unfold KeepsMemory
  split
  · trivial
  · trivial
  · rename_i document
    exact ⟨document, rfl, .refl (fun _ => rfl) _, .refl .refl _⟩
  · rfl

private theorem keepsTickets_create_iff {call : StoreCall κ} (file : BacktrackFile)
    (ticket : BacktrackTicket) : call.KeepsTickets file (file.createTicket ticket) ↔
      ∀ content, file ≠ .undecodable content := by
  cases file with
  | absent => exact iff_of_true trivial (by simp)
  | undecodable content =>
      simp [StoreCall.KeepsTickets, BacktrackFile.createTicket]
  | decoded store => exact iff_of_true (.append (StoreCall.Renews.refl call) _ _) (by simp)

private theorem keepsTickets_update (file : BacktrackFile) (ticketId : String)
    (updates : List TicketUpdate) :
    (StoreCall.updateTicket ticketId updates : StoreCall κ).KeepsTickets file
      (file.updateTicket ticketId updates).2 := by
  cases file with
  | absent => trivial
  | undecodable content => rfl
  | decoded store =>
      rw [StoreCall.KeepsTickets, BacktrackFile.updateTicket_tickets]
      refine .modify (StoreCall.Renews.refl _) _ _ fun ticket hticket => ?_
      have hfound := List.findIdx_of_getElem?_eq_some hticket
      exact Or.inr ⟨updates, by rw [of_decide_eq_true hfound], rfl⟩

private theorem exec_promote_of_error {stores : Stores κ} {error : GlobalStoreError}
    (hload : loadMemory stores.memory = .error error) (stamp : PromotionStamp) (lesson : Lesson κ)
    (projectPath : String) :
    (StoreCall.promoteLesson stamp lesson projectPath).effect.exec stores =
      (.error error, stores) := by
  simp only [StoreCall.effect, Effect.exec_bind, Effect.exec_within,
    exec_promoteLesson_of_error hload]

private theorem exec_promote {stores : Stores κ} {document : GlobalMemoryDocument κ}
    (hload : loadMemory stores.memory = .ok document) (stamp : PromotionStamp) (lesson : Lesson κ)
    (projectPath : String) :
    ∃ document', (StoreCall.promoteLesson stamp lesson projectPath).effect.exec stores =
        (.ok (), { stores with memory := .decoded document' }) ∧
      Extends Eq document.globalLessons document'.globalLessons ∧
      Extends GlobalLessonUsage.Continues document.usage document'.usage := by
  have hexec := exec_promoteLesson hload
    (document.promote stamp lesson projectPath).2.reread_exact
  refine ⟨_, ?_, document.promote_extends stamp lesson projectPath⟩
  simp only [StoreCall.effect, Effect.exec_bind, Effect.exec_within, hexec, Effect.exec_pure]

private theorem not_hidden_of_error {file : MemoryFile κ} {error : GlobalStoreError}
    (hload : loadMemory file = .error error) : ¬ HidesContent file := by
  cases file with
  | unreadable content => exact id
  | _ => cases hload

/-- Writing what extends the loaded document keeps what the file holds, unless
the load has hidden it. -/
private theorem keeps_decoded_iff {file : MemoryFile κ}
    {document document' : GlobalMemoryDocument κ} (hload : loadMemory file = .ok document)
    (hlessons : Extends Eq document.globalLessons document'.globalLessons)
    (husage : Extends GlobalLessonUsage.Continues document.usage document'.usage) :
    KeepsMemory file (.decoded document') ↔ ¬ HidesContent file := by
  cases file with
  | absent => exact iff_of_true trivial id
  | blank content => exact iff_of_true trivial id
  | unreadable content => cases hload
  | decoded stored =>
      cases hload
      exact iff_of_true ⟨document', rfl, hlessons, husage⟩ id
  | invalidYaml content => exact iff_of_false nofun fun h => h trivial
  | notMapping content => exact iff_of_false nofun fun h => h trivial
  | invalidDocument content complaint => exact iff_of_false nofun fun h => h trivial

/-- A call loses nothing exactly when it finds the records of its file, if there
are any. A file that cannot be decoded counts as an empty store, and the call
writes its own item over it. -/
theorem nothingLost_iff (call : StoreCall κ) (stores : Stores κ) :
    NothingLost call stores ↔ call.FindsRecords stores := by
  cases call with
  | createTicket ticket =>
      constructor
      · exact fun h => (keepsTickets_create_iff _ ticket).mp h.tickets
      · intro h
        exact ⟨(keepsTickets_create_iff _ ticket).mpr h, keepsMemory_refl _, nofun⟩
  | updateTicket ticketId updates =>
      exact iff_of_true
        ⟨keepsTickets_update _ ticketId updates, keepsMemory_refl _, nofun⟩ trivial
  | promoteLesson stamp lesson projectPath =>
      cases hload : loadMemory stores.memory with
      | error error =>
          have hexec := exec_promote_of_error hload stamp lesson projectPath
          refine iff_of_true ⟨?_, ?_, ?_⟩ (not_hidden_of_error hload)
          · rw [hexec]
            exact StoreCall.keepsTickets_refl _ _
          · rw [hexec]
            exact keepsMemory_refl _
          · rw [hexec]
            exact fun _ => rfl
      | ok document =>
          obtain ⟨document', hexec, hlessons, husage⟩ := exec_promote hload stamp lesson projectPath
          constructor
          · intro h
            have hmemory := h.memory
            rw [hexec] at hmemory
            exact (keeps_decoded_iff hload hlessons husage).mp hmemory
          · intro h
            refine ⟨?_, ?_, ?_⟩
            · rw [hexec]
              exact StoreCall.keepsTickets_refl _ _
            · rw [hexec]
              exact (keeps_decoded_iff hload hlessons husage).mpr h
            · rw [hexec]
              exact nofun

/-- A new ticket, -/
def demoTicket : BacktrackTicket where
  ticketId := "BT-7C9E66"
  reason := "The plan misses a requirement."
  sourceStageId := "build"
  targetStageId := "plan"
  createdAt := "2026-01-01T10:00:00"

/-- and a lesson to be promoted. -/
def demoLesson : Lesson ℚ where
  id := "lesson-1"
  text := "Pin the toolchain."
  status := .approved
  confidence := ⟨1, one_isConfidence⟩
  createdAt := "2026-01-01T10:00:00Z"
  updatedAt := "2026-01-01T10:00:00Z"

/-- A ticket in a truncated `backtrack.json`, and a lesson in a `memory.yaml`
with a tab for indentation, are gone after the next call. -/
theorem not_nothingLost :
    ¬ NothingLost (.createTicket demoTicket : StoreCall ℚ)
        ⟨.undecodable [123, 34, 116, 105, 99, 107, 101, 116, 115, 34], .absent⟩ ∧
      ¬ NothingLost (.promoteLesson
          ⟨"7c9e6679", "2026-01-02T10:00:00Z", "2026-01-02T10:00:00Z"⟩ demoLesson "/srv/app" :
            StoreCall ℚ)
        ⟨.absent, .invalidYaml [103, 58, 10, 9, 45]⟩ := by
  constructor
  · intro h
    exact nomatch h.tickets
  · intro h
    exact nomatch h.memory

end ForgeOS
