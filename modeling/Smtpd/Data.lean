import Smtpd.Consume

namespace Smtpd

open Checked Incremental

abbrev DOT : UInt8 := 46

inductive DataState
  | data | cr | crlf | crlfdot | crlfdotcr | done
deriving DecidableEq, Repr

structure DataParser where
  dataBuffer : Buffer
  state : DataState
deriving DecidableEq, Repr

def dataParserInit (p : DataParser) : DataParser :=
  { state := .data, dataBuffer := bufferInit 2048 p.dataBuffer.raw }

/-- The calls of `buffer_write` of one branch, and the state it ends in. -/
def DataParser.emit (p : DataParser) (cs : List UInt8) (next : DataState) : Result DataParser := do
  let dataBuffer ← bufferWrites p.dataBuffer cs
  .ok { dataBuffer, state := next }

def dataParserFeed (p : DataParser) (c : UInt8) : Result DataParser :=
  match p.state with
  | .data => if c = CR then p.emit [] .cr else p.emit [c] .data
  | .cr => if c = LF then p.emit [] .crlf else p.emit [CR, c] .data
  | .crlf => if c = DOT then p.emit [] .crlfdot else p.emit [CR, LF, c] .data
  | .crlfdot => if c = CR then p.emit [] .crlfdotcr else p.emit [CR, LF, DOT, c] .data
  | .crlfdotcr => if c = LF then p.emit [] .done else p.emit [CR, LF, DOT, CR, c] .data
  | .done => p.emit [] .done

def dataIsDone (st : DataState) : Bool := st = .done

def dataParser : Parser Fault DataParser UInt8 :=
  { feed := dataParserFeed, done := fun p => dataIsDone p.state }

def dataConsume (b : Buffer) (p : DataParser) : Result (Buffer × DataParser) :=
  consume dataParser b p

/-- The bytes read but not yet written to the data buffer in each state. -/
def DataState.held : DataState → List UInt8
  | .data => []
  | .cr => [CR]
  | .crlf => [CR, LF]
  | .crlfdot => [CR, LF, DOT]
  | .crlfdotcr => [CR, LF, DOT, CR]
  | .done => [CR, LF, DOT, CR, LF]

theorem DataState.held_length (st : DataState) : st.held.length ≤ 5 := by
  cases st <;> decide

abbrev delimiter : List UInt8 := [CR, LF, DOT, CR, LF]

/-- The next state and the bytes written on the way to it. -/
def DataState.step (st : DataState) (c : UInt8) : DataState × List UInt8 :=
  match st with
  | .data => if c = CR then (.cr, []) else (.data, [c])
  | .cr => if c = LF then (.crlf, []) else (.data, [CR, c])
  | .crlf => if c = DOT then (.crlfdot, []) else (.data, [CR, LF, c])
  | .crlfdot => if c = CR then (.crlfdotcr, []) else (.data, [CR, LF, DOT, c])
  | .crlfdotcr => if c = LF then (.done, []) else (.data, [CR, LF, DOT, CR, c])
  | .done => (.done, [])

theorem dataParserFeed_eq (p : DataParser) (c : UInt8) :
    dataParserFeed p c = p.emit (p.state.step c).2 (p.state.step c).1 := by
  unfold dataParserFeed DataState.step
  cases p.state <;> simp only <;> split <;> rfl

/-- Nothing is lost or invented by a step: what was held back and the new byte are
written or held back. -/
theorem DataState.step_held {st : DataState} (h : st ≠ .done) (c : UInt8) :
    st.held ++ [c] = (st.step c).2 ++ (st.step c).1.held := by
  cases st with
  | done => exact absurd rfl h
  | _ =>
    simp only [DataState.step]
    split <;> simp_all [DataState.held]

end Smtpd
