import Mathlib.Data.List.Basic

/-!
The backtrack tickets of a project, in `.forge/backtrack.json`. The registry
of tickets reads the whole file for each call and writes the whole file back.
-/

namespace ForgeOS

/-- The statuses of a ticket; `opened` is `OPEN`. -/
inductive BacktrackStatus where
  | opened
  | approved
  | inProgress
  | resolved
  | rejected
deriving DecidableEq, Repr

/-- A request to rework a stage. -/
structure BacktrackTicket where
  schemaVersion : String := "0.1.0"
  ticketId : String
  status : BacktrackStatus := .opened
  reason : String
  sourceStageId : String
  targetStageId : String
  affectedArtifacts : List String := []
  requiresApproval : Bool := true
  createdAt : String
  resolvedAt : Option String := none
deriving DecidableEq, Repr

structure BacktrackStore where
  schemaVersion : String := "0.1.0"
  tickets : List BacktrackTicket := []
deriving DecidableEq, Repr

/-- What stands in `backtrack.json`: a store, or bytes that do not decode to
one. -/
inductive BacktrackFile where
  | absent
  | undecodable (content : List UInt8)
  | decoded (store : BacktrackStore)
deriving DecidableEq, Repr

/-- A keyword argument of `update_ticket`, which assigns it to its field. -/
inductive TicketUpdate where
  | schemaVersion (value : String)
  | ticketId (value : String)
  | status (value : BacktrackStatus)
  | reason (value : String)
  | sourceStageId (value : String)
  | targetStageId (value : String)
  | affectedArtifacts (value : List String)
  | requiresApproval (value : Bool)
  | createdAt (value : String)
  | resolvedAt (value : Option String)
deriving DecidableEq, Repr

namespace BacktrackTicket

/-- `setattr(ticket, key, value)`. -/
def assign (ticket : BacktrackTicket) : TicketUpdate → BacktrackTicket
  | .schemaVersion value => { ticket with schemaVersion := value }
  | .ticketId value => { ticket with ticketId := value }
  | .status value => { ticket with status := value }
  | .reason value => { ticket with reason := value }
  | .sourceStageId value => { ticket with sourceStageId := value }
  | .targetStageId value => { ticket with targetStageId := value }
  | .affectedArtifacts value => { ticket with affectedArtifacts := value }
  | .requiresApproval value => { ticket with requiresApproval := value }
  | .createdAt value => { ticket with createdAt := value }
  | .resolvedAt value => { ticket with resolvedAt := value }

def update (ticket : BacktrackTicket) (updates : List TicketUpdate) : BacktrackTicket :=
  updates.foldl assign ticket

end BacktrackTicket

namespace BacktrackFile

/-- `load`. Any failure to read the file ends in an empty store. -/
def load : BacktrackFile → BacktrackStore
  | .absent => {}
  | .undecodable _ => {}
  | .decoded store => store

def createTicket (file : BacktrackFile) (ticket : BacktrackTicket) : BacktrackFile :=
  .decoded { file.load with tickets := file.load.tickets ++ [ticket] }

/-- The position of the first ticket with an id, or the number of tickets. -/
def position (file : BacktrackFile) (ticketId : String) : Nat :=
  file.load.tickets.findIdx fun ticket => ticket.ticketId = ticketId

/-- `get_ticket`: the first ticket with the id. -/
def getTicket (file : BacktrackFile) (ticketId : String) : Option BacktrackTicket :=
  file.load.tickets.find? fun ticket => ticket.ticketId = ticketId

/-- `update_ticket`. The file is written only if it has the ticket. -/
def updateTicket (file : BacktrackFile) (ticketId : String) (updates : List TicketUpdate) :
    Option BacktrackTicket × BacktrackFile :=
  match file.getTicket ticketId with
  | none => (none, file)
  | some ticket => (some (ticket.update updates), .decoded { file.load with
      tickets := file.load.tickets.modify (file.position ticketId) fun ticket =>
        ticket.update updates })

section Lookup

variable {file : BacktrackFile} {ticketId : String}

@[simp]
theorem load_decoded (store : BacktrackStore) : (BacktrackFile.decoded store).load = store := rfl

@[simp]
theorem createTicket_tickets (file : BacktrackFile) (ticket : BacktrackTicket) :
    (file.createTicket ticket).load.tickets = file.load.tickets ++ [ticket] := rfl

theorem getTicket_eq (file : BacktrackFile) (ticketId : String) :
    file.getTicket ticketId = file.load.tickets[file.position ticketId]? :=
  List.find?_eq_getElem?_findIdx

theorem updateTicket_of_none {updates : List TicketUpdate} (h : file.getTicket ticketId = none) :
    file.updateTicket ticketId updates = (none, file) := by
  rw [updateTicket, h]

theorem updateTicket_fst (file : BacktrackFile) (ticketId : String)
    (updates : List TicketUpdate) : (file.updateTicket ticketId updates).1 =
      (file.getTicket ticketId).map fun ticket => ticket.update updates := by
  unfold updateTicket
  cases file.getTicket ticketId with
  | none => rfl
  | some ticket => rfl

/-- An update changes the ticket that a lookup finds, and no other. -/
theorem updateTicket_tickets (file : BacktrackFile) (ticketId : String)
    (updates : List TicketUpdate) : (file.updateTicket ticketId updates).2.load.tickets =
      file.load.tickets.modify (file.position ticketId) fun ticket => ticket.update updates := by
  unfold updateTicket
  cases hticket : file.getTicket ticketId with
  | none =>
      rw [getTicket_eq, List.getElem?_eq_none_iff] at hticket
      exact (List.modify_eq_self hticket).symm
  | some ticket => rfl

end Lookup

end BacktrackFile

end ForgeOS
