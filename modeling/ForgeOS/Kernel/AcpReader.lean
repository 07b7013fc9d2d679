import ForgeOS.Library.Effect
import ForgeOS.Library.Lines
import ForgeOS.Text

/-!
How the ACP client reads the lines of its agent. `_receive` asks the file
descriptor whether something can be read, but takes its line from a buffered
reader above it, which takes all the text there is whenever it reads and turns
every line ending into a line feed. A line that came in together with an earlier
one is in the buffer, where the file descriptor knows nothing of it.
-/

namespace ForgeOS

open Library

/-- What one `_receive` comes back with: a line, the end of the output, the
text after the last line when the output has ended, or the timeout. -/
inductive LineReceipt where
  | line (text : List Char)
  | tail (text : List Char)
  | closed
  | timeout
deriving DecidableEq, Repr

def LineReceipt.line? : LineReceipt → Option (List Char)
  | .line text => some text
  | _ => none

/-- The output of the agent: all it has written, what of it is in the pipe and
what in the reader's buffer, and what the calls of `_receive` so far came back
with. The reader holds a carriage return back as long as a line feed may follow
it. A call that waits inside `readline` is blocked. -/
structure AgentOutput where
  written : List Char
  pipe : List Char
  heldReturn : Bool
  buffer : List Char
  closed : Bool
  blocked : Bool
  receipts : List LineReceipt

/-- The agent writes a chunk or closes its output, or the client receives. A
call of `_receive` on an empty pipe is one whose timeout passes in silence. -/
inductive OutputStep where
  | write (chunk : List Char)
  | close
  | receive

def isNewline (c : Char) : Bool := c = '\n'

namespace AgentOutput

def initial : AgentOutput := ⟨[], [], false, [], false, false, []⟩

/-- What comes of a carriage return that is held back, once the output has
ended. -/
def ending (s : AgentOutput) (heldReturn : Bool) : List Char :=
  if s.closed then flushNewline heldReturn else []

/-- What the reader makes of all that has come in. -/
def received (s : AgentOutput) : List Char :=
  (decodeNewlines false s.written).1 ++ s.ending (decodeNewlines false s.written).2

theorem received_of_closed {s : AgentOutput} (hclosed : s.closed = true) :
    s.received = universalNewlines s.written := by
  rw [received, ending, if_pos hclosed, universalNewlines_eq_decodeNewlines]

/-- The text that has come in and not been delivered. -/
def held (s : AgentOutput) : List Char :=
  s.buffer ++ (decodeNewlines s.heldReturn s.pipe).1 ++
    s.ending (decodeNewlines s.heldReturn s.pipe).2

/-- `readline` at the end of the output, with all the text that is left. -/
def readEnd (s : AgentOutput) (text : List Char) : AgentOutput :=
  match takeLine isNewline text with
  | some (line, rest) =>
      { s with
        pipe := []
        heldReturn := false
        buffer := rest
        blocked := false
        receipts := s.receipts ++ [.line line] }
  | none =>
      { s with
        pipe := []
        heldReturn := false
        buffer := []
        blocked := false
        receipts := s.receipts ++ [if text = [] then .closed else .tail text] }

/-- `readline`: from the buffer when it has a line, else with all the text of
the pipe. Without a line in either it waits, unless the output has ended. -/
def readline (s : AgentOutput) : AgentOutput :=
  match takeLine isNewline s.buffer with
  | some (line, rest) =>
      { s with buffer := rest, blocked := false, receipts := s.receipts ++ [.line line] }
  | none =>
      let read := decodeNewlines s.heldReturn s.pipe
      match takeLine isNewline (s.buffer ++ read.1) with
      | some (line, rest) =>
          { s with
            pipe := []
            heldReturn := read.2
            buffer := rest
            blocked := false
            receipts := s.receipts ++ [.line line] }
      | none =>
          if s.closed then s.readEnd (s.buffer ++ read.1 ++ flushNewline read.2)
          else
            { s with
              pipe := []
              heldReturn := read.2
              buffer := s.buffer ++ read.1
              blocked := true }

/-- The file descriptor can be read: text is in the pipe, or it has ended. -/
def readable (s : AgentOutput) : Bool := !s.pipe.isEmpty || s.closed

/-- `_receive`, of a client that is not blocked. -/
def receive (s : AgentOutput) : AgentOutput :=
  if s.readable then s.readline else { s with receipts := s.receipts ++ [.timeout] }

/-- A blocked `readline` goes on with what comes in. -/
def wake (s : AgentOutput) : AgentOutput := if s.blocked then s.readline else s

def step (s : AgentOutput) : OutputStep → AgentOutput
  | .write chunk =>
      if s.closed then s
      else { s with written := s.written ++ chunk, pipe := s.pipe ++ chunk }.wake
  | .close => { s with closed := true }.wake
  | .receive => if s.blocked then s else s.receive

/-- The complete lines delivered so far. -/
def delivered (s : AgentOutput) : List (List Char) := s.receipts.filterMap LineReceipt.line?

/-! ### What is asked of the reader -/

/-- The lines delivered are the first lines received, each once and in order,
and the others are held. -/
def InOrder (s : AgentOutput) : Prop :=
  completeLines isNewline s.received = s.delivered ++ completeLines isNewline s.held

/-- The lines delivered are complete, and they are what has been received up to
what is held. Once the output has ended, the text after the last line may have
been handed out as well. Until then the reader holds a carriage return back if
the output ends with one. -/
structure Accounts (s : AgentOutput) : Prop where
  complete : ∀ line ∈ s.delivered, takeLine isNewline line = some (line, [])
  text : ∃ rest, s.received = s.delivered.flatten ++ rest ∧
    (rest = s.held ∨ s.closed = true ∧ s.held = [] ∧ takeLine isNewline rest = none)
  pending : s.closed = false →
    (decodeNewlines s.heldReturn s.pipe).2 = (decodeNewlines false s.written).2

variable {s : AgentOutput}

theorem Accounts.inOrder (h : s.Accounts) : s.InOrder := by
  obtain ⟨hcomplete, ⟨rest, hreceived, hrest⟩, -⟩ := h
  rw [InOrder, hreceived, completeLines_flatten_append hcomplete]
  rcases hrest with rfl | ⟨-, hheld, hnone⟩
  · rfl
  · rw [hheld, completeLines_of_takeLine_none hnone]
    rfl

/-- The line taken out of what is held is one more line delivered. -/
private theorem Accounts.take (h : s.Accounts) {line rest : List Char} {after : AgentOutput}
    (hline : takeLine isNewline s.held = some (line, rest))
    (hreceived : after.received = s.received) (hheld : after.held = rest)
    (hdelivered : after.delivered = s.delivered ++ [line])
    (hpending : after.closed = false →
      (decodeNewlines after.heldReturn after.pipe).2 = (decodeNewlines false after.written).2) :
    after.Accounts := by
  obtain ⟨htext, hcomplete⟩ := takeLine_spec hline
  refine ⟨?_, ⟨rest, ?_, Or.inl hheld.symm⟩, hpending⟩
  · intro other hother
    rw [hdelivered] at hother
    rcases List.mem_append.mp hother with hold | hnew
    · exact h.complete other hold
    · rw [List.mem_singleton.mp hnew]
      exact hcomplete
  · obtain ⟨before, hbefore, hrest⟩ := h.text
    rcases hrest with rfl | ⟨-, hempty, -⟩
    · rw [hreceived, hbefore, hdelivered, htext]
      simp
    · rw [hempty] at hline
      cases hline

variable (s) in
/-- A receipt without a line delivers nothing. -/
private theorem delivered_snoc {receipt : LineReceipt} (h : receipt.line? = none) :
    (s.receipts ++ [receipt]).filterMap LineReceipt.line? = s.delivered := by
  simp [delivered, h]

theorem held_of_closed (hclosed : s.closed = true) :
    s.held = s.buffer ++ (decodeNewlines s.heldReturn s.pipe).1 ++
      flushNewline (decodeNewlines s.heldReturn s.pipe).2 := by
  rw [held, ending, if_pos hclosed]

theorem Accounts.readEnd (h : s.Accounts) (hclosed : s.closed = true) :
    (s.readEnd s.held).Accounts := by
  have hopen {after : AgentOutput} (hsame : after.closed = s.closed) :
      after.closed = false → (decodeNewlines after.heldReturn after.pipe).2 =
        (decodeNewlines false after.written).2 := by
    intro hfalse
    rw [hsame, hclosed] at hfalse
    cases hfalse
  unfold AgentOutput.readEnd
  split
  · rename_i line rest hheld
    refine h.take hheld rfl ?_ (by simp [delivered, LineReceipt.line?]) (hopen rfl)
    simp [held, ending, decodeNewlines, flushNewline]
  · rename_i hnone
    have hline : (if s.held = [] then .closed else .tail s.held : LineReceipt).line? = none := by
      split
      · rfl
      · rfl
    have hreceipts := delivered_snoc s hline
    obtain ⟨hcomplete, ⟨rest, hreceived, hrest⟩, -⟩ := h
    refine ⟨?_, ⟨rest, ?_, Or.inr ⟨hclosed, ?_, ?_⟩⟩, hopen rfl⟩
    · simpa only [delivered, hreceipts] using hcomplete
    · rw [delivered, hreceipts]
      exact hreceived
    · simp [held, ending, decodeNewlines, flushNewline]
    · rcases hrest with rfl | ⟨-, -, hrest⟩
      · exact hnone
      · exact hrest

theorem Accounts.readline (h : s.Accounts) : s.readline.Accounts := by
  unfold AgentOutput.readline
  split
  · rename_i line rest hbuffer
    have hheld := takeLine_append hbuffer ((decodeNewlines s.heldReturn s.pipe).1 ++
      s.ending (decodeNewlines s.heldReturn s.pipe).2)
    rw [← List.append_assoc] at hheld
    refine h.take hheld rfl ?_ (by simp [delivered, LineReceipt.line?]) h.pending
    rw [held, List.append_assoc]
    rfl
  · dsimp only
    split
    · rename_i line rest hread
      have hheld := takeLine_append hread (s.ending (decodeNewlines s.heldReturn s.pipe).2)
      refine h.take hheld rfl ?_ (by simp [delivered, LineReceipt.line?]) h.pending
      rw [held, decodeNewlines, List.append_nil]
      rfl
    · split
      · rename_i hclosed
        rw [← held_of_closed hclosed]
        exact h.readEnd hclosed
      · refine ⟨h.complete, ?_, h.pending⟩
        obtain ⟨rest, hreceived, hrest⟩ := h.text
        refine ⟨rest, hreceived, ?_⟩
        rw [held, decodeNewlines, List.append_nil]
        exact hrest

theorem Accounts.wake (h : s.Accounts) : s.wake.Accounts := by
  unfold AgentOutput.wake
  split
  · exact h.readline
  · exact h

/-- What is written after the rest of the output comes after what is held. -/
theorem Accounts.write (h : s.Accounts) (hopen : s.closed = false) (chunk : List Char) :
    { s with written := s.written ++ chunk, pipe := s.pipe ++ chunk }.Accounts := by
  obtain ⟨hcomplete, ⟨rest, hreceived, hrest⟩, hpending⟩ := h
  have hpending := hpending hopen
  have hrest : rest = s.held := hrest.resolve_right fun hclosed => by simp [hopen] at hclosed
  refine ⟨hcomplete, ⟨rest ++ (decodeNewlines (decodeNewlines false s.written).2 chunk).1, ?_,
    Or.inl ?_⟩, ?_⟩
  · simp only [received, ending, hopen, Bool.false_eq_true, if_false, List.append_nil,
      decodeNewlines_append] at hreceived ⊢
    rw [hreceived, List.append_assoc]
    rfl
  · simp only [hrest, held, ending, hopen, Bool.false_eq_true, if_false, List.append_nil,
      decodeNewlines_append, hpending, List.append_assoc]
  · intro _
    simp only [decodeNewlines_append, hpending]

/-- The carriage return that is held back is the last one received. -/
theorem Accounts.close (h : s.Accounts) : { s with closed := true }.Accounts := by
  obtain ⟨hcomplete, ⟨rest, hreceived, hrest⟩, hpending⟩ := h
  cases hclosed : s.closed with
  | true =>
      have hsame : { s with closed := true } = s := by rw [← hclosed]
      rw [hsame]
      exact ⟨hcomplete, ⟨rest, hreceived, hrest⟩, hpending⟩
  | false =>
      have hpending := hpending hclosed
      have hrest : rest = s.held := hrest.resolve_right fun h => by simp [hclosed] at h
      refine ⟨hcomplete, ⟨rest ++ flushNewline (decodeNewlines false s.written).2, ?_,
        Or.inl ?_⟩, by simp⟩
      · simp only [received, ending, hclosed, Bool.false_eq_true, if_false, List.append_nil,
          if_true] at hreceived ⊢
        rw [hreceived, List.append_assoc]
        rfl
      · simp only [hrest, held, ending, hclosed, Bool.false_eq_true, if_false, List.append_nil,
          if_true, hpending]

theorem Accounts.step (h : s.Accounts) (st : OutputStep) : (s.step st).Accounts := by
  cases st with
  | write chunk =>
      simp only [AgentOutput.step]
      split
      · exact h
      · rename_i hopen
        exact (h.write (Bool.eq_false_iff.mpr hopen) chunk).wake
  | close => exact h.close.wake
  | receive =>
      simp only [AgentOutput.step, AgentOutput.receive]
      split
      · exact h
      · split
        · exact h.readline
        · have hreceipts := delivered_snoc s (show LineReceipt.timeout.line? = none from rfl)
          refine ⟨?_, ?_, h.pending⟩
          · simpa only [delivered, hreceipts] using h.complete
          · rw [delivered, hreceipts]
            exact h.text

/-! ### Timeouts -/

end AgentOutput

end ForgeOS
