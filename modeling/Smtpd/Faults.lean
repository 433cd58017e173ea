import Smtpd.Session

namespace Smtpd

open Checked CString Incremental

/-- The fault is no call of `abort`. -/
def NoAbort (e : Fault) : Prop := ∀ site, e ≠ .abort site

/-- A computation that calls no `abort`. -/
abbrev Plain {α : Type} (x : Result α) : Prop := Ensures (fun _ => True) NoAbort x

theorem noAbort_undefined : NoAbort .undefined := fun _ h => by cases h
theorem noAbort_assertion : NoAbort .assertion := fun _ h => by cases h
theorem noAbort_outOfMemory : NoAbort .outOfMemory := fun _ h => by cases h

section Plain

theorem Plain.bind {α β : Type} {x : Result α} {f : α → Result β} (h : Plain x) (hf : ∀ a, Plain (f a)) :
    Plain (x >>= f) :=
  Ensures.bind h fun a _ => hf a

theorem plain_ok {α : Type} (a : α) : Plain (.ok a : Result α) := trivial

theorem plain_demand {α : Type} (o : Option α) : Plain (demand .undefined o : Result α) :=
  (ensures_demand noAbort_undefined o).mono fun _ _ => trivial

theorem bufferReadPtr_plain (b : Buffer) : Plain (bufferReadPtr b) :=
  ensures_ite (fun _ => plain_ok _) (fun _ => noAbort_assertion)

theorem bufferWritePtr_plain (b : Buffer) : Plain (bufferWritePtr b) :=
  ensures_ite (fun _ => plain_ok _) (fun _ => noAbort_assertion)

theorem bufferWriteAdv_plain (b : Buffer) (n : Int) : Plain (bufferWriteAdv b n) :=
  ensures_ite (fun _ => ensures_ite (fun _ => plain_ok _) (fun _ => noAbort_assertion)) (fun _ => plain_ok _)

theorem bufferReadAdv_plain (b : Buffer) (n : Int) : Plain (bufferReadAdv b n) :=
  ensures_ite (fun _ => ensures_ite (fun _ => plain_ok _) (fun _ => noAbort_assertion)) (fun _ => plain_ok _)

theorem bufferStore_plain (b : Buffer) (ptr : Nat) (bytes : List UInt8) : Plain (bufferStore b ptr bytes) :=
  ensures_ite (fun _ => plain_ok _) (fun _ => noAbort_undefined)

theorem bufferRead_plain (b : Buffer) : Plain (bufferRead b) :=
  ensures_ite (fun _ => (plain_demand _).bind fun _ => (bufferReadAdv_plain _ _).bind fun _ => plain_ok _)
    (fun _ => plain_ok _)

theorem bufferWrite_plain (b : Buffer) (c : UInt8) : Plain (bufferWrite b c) :=
  ensures_ite (fun _ => (bufferStore_plain _ _ _).bind fun _ => bufferWriteAdv_plain _ _)
    (fun _ => plain_ok _)

theorem emit_plain (p : DataParser) (cs : List UInt8) (next : DataState) : Plain (p.emit cs next) :=
  Plain.bind (ensures_foldlM (fun b c _ => bufferWrite_plain b c) cs trivial) fun _ => plain_ok _

theorem dataParserFeed_plain (p : DataParser) (c : UInt8) : Plain (dataParserFeed p c) := by
  rw [dataParserFeed_eq]
  exact emit_plain _ _ _

theorem requestParserFeed_plain (p : RequestParser) (c : UInt8) : Plain (requestParserFeed p c) := by
  have hstore : ∀ offset, Plain (p.request.store offset c) :=
    fun offset => ensures_ite (fun _ => plain_ok _) (fun _ => noAbort_undefined)
  unfold requestParserFeed
  split
  case h_4 | h_5 | h_6 => exact (hstore _).bind fun _ => plain_ok _
  all_goals exact plain_ok _

theorem consume_plain {π : Type} {P : Parser Fault π UInt8} (hfeed : ∀ p c, Plain (P.feed p c)) (b : Buffer)
    (p : π) : Plain (consume P b p) := by
  have hloop : ∀ fuel b p, Plain (consumeLoop P fuel b p) := by
    intro fuel
    induction fuel with
    | zero => exact fun b p => plain_ok _
    | succ fuel ih =>
      intro b p
      refine ensures_ite (fun _ => (bufferRead_plain b).bind fun r => ?_) (fun _ => plain_ok _)
      exact (hfeed _ _).bind fun q => ensures_ite (fun _ => plain_ok _) (fun _ => ih _ _)
  exact hloop _ b p

theorem dataConsume_plain (b : Buffer) (p : DataParser) : Plain (dataConsume b p) :=
  consume_plain dataParserFeed_plain b p

theorem requestConsume_plain (b : Buffer) (p : RequestParser) (errored : Bool) :
    Plain (requestConsume b p errored) :=
  consume_plain (fun p c => (requestParserFeed_plain p.1 c).bind fun _ => plain_ok _) b (p, errored)

theorem checkEmailDomain_plain (email : List UInt8) : Plain (checkEmailDomain email) := by
  refine (plain_demand _).bind fun at_ => ?_
  cases at_ with
  | none => exact plain_ok _
  | some rest => exact plain_demand _

theorem addRcptToList_plain (env : Env) (head : List RcptNode) (email : List UInt8) :
    Plain (addRcptToList env head email) := by
  refine Plain.bind ?_ fun node => plain_ok _
  exact ensures_ite (fun _ => (plain_demand _).bind fun _ => plain_ok _)
    (fun _ => noAbort_outOfMemory)

theorem writeToFiles_plain (os : Os) (p : DataParser) (head : List RcptNode) :
    Plain (writeToFiles os p head) := by
  induction head generalizing os with
  | nil => exact plain_ok _
  | cons current next ih => exact (plain_demand _).bind fun fd => ih _

theorem writeStatus_plain (env : Env) (key : Key) (current next : SmtpState) :
    Plain (writeStatus env key current next) := by
  refine (bufferReadPtr_plain _).bind fun r => ?_
  cases env.send with
  | none => exact plain_ok _
  | some taken =>
    refine ensures_ite (fun _ => (bufferReadAdv_plain _ _).bind fun wb => ?_) (fun _ => plain_ok _)
    refine ensures_ite (fun _ => ?_) (fun _ => plain_ok _)
    split <;> exact plain_ok _

theorem putString_plain (key : Key) (text : List UInt8) (n : Nat) : Plain (putString key text n) :=
  (bufferWritePtr_plain _).bind fun _ => (bufferStore_plain _ _ _).bind fun _ =>
    (bufferWriteAdv_plain _ _).bind fun _ => plain_ok _

theorem copyToWriteBuffer_plain (key : Key) (message : List UInt8) : Plain (copyToWriteBuffer key message) :=
  (bufferStore_plain _ _ _).bind fun _ => (bufferWriteAdv_plain _ _).bind fun _ => plain_ok _

theorem reply_plain (key : Key) (st : SmtpState) (text : List UInt8) (n : Nat) : Plain (reply key st text n) :=
  (putString_plain key text n).bind fun _ => plain_ok _

theorem quitReply_plain (env : Env) (key : Key) (st : SmtpState) : Plain (quitReply env key st) :=
  (reply_plain key st _ _).bind fun _ => (writeStatus_plain _ _ _ _).bind fun _ => plain_ok _

theorem mailInfoReadProcess_plain (env : Env) (key : Key) : Plain (mailInfoReadProcess env key) := by
  refine Ensures.bind (dataConsume_plain _ _) fun r _ => Ensures.bind (writeToFiles_plain _ _ _) fun os _ => ?_
  refine ensures_ite (fun _ => ?_) (fun _ => plain_ok _)
  split
  · exact ensures_ite (fun _ => Plain.bind (putString_plain _ _ _) fun _ => plain_ok _)
      (fun _ => Plain.bind (putString_plain _ _ _) fun _ => plain_ok _)
  · exact plain_ok _

end Plain

section Callbacks

variable {F : Fault → Prop} {env : Env} {key : Key} {st : SmtpState}

/-- Reading fails as the functions fail that it calls. -/
theorem readStatus_ensures {process : Env → Key → Result (SmtpState × Key)} (hf : ∀ e, NoAbort e → F e)
    (hprocess : ∀ key, Ensures (fun _ => True) F (process env key)) :
    Ensures (fun _ => True) F (readStatus env key process) := by
  refine ensures_ite (fun _ => hprocess _) (fun _ => ?_)
  refine ((bufferWritePtr_plain _).weaken hf).bind fun r _ => ?_
  cases env.recv with
  | none => exact trivial
  | some bytes =>
    refine ensures_ite (fun _ => ?_) (fun _ => trivial)
    exact ((bufferStore_plain _ _ _).weaken hf).bind fun _ _ =>
      ((bufferWriteAdv_plain _ _).weaken hf).bind fun _ _ => hprocess _

theorem requestProcess_ensures {answer : Env → Key → Result (SmtpState × Key)} (hf : ∀ e, NoAbort e → F e)
    (hanswer : ∀ key, Ensures (fun _ => True) F (answer env key)) :
    Ensures (fun _ => True) F (requestProcess env key st answer) := by
  refine ((requestConsume_plain _ _ _).weaken hf).bind fun r _ => ?_
  refine ensures_ite (fun _ => ?_) (fun _ => trivial)
  split
  · exact hanswer _
  · exact trivial

theorem failedConnectionAnswer_plain : Plain (failedConnectionAnswer env key) := by
  unfold failedConnectionAnswer
  split
  · exact quitReply_plain _ _ _
  · exact plain_ok _

theorem ehloAnswer_plain : Plain (ehloAnswer env key) := by
  unfold ehloAnswer
  split
  case h_3 => exact quitReply_plain _ _ _
  all_goals exact (reply_plain _ _ _ _).bind fun _ => plain_ok _

theorem mailFromAnswer_plain : Plain (mailFromAnswer env key) := by
  unfold mailFromAnswer
  split
  case h_1 =>
    have hcopy : Plain (copyMailfrom key) :=
      (plain_demand _).bind fun _ => ensures_ite (fun _ => plain_ok _) (fun _ => noAbort_undefined)
    exact hcopy.bind fun _ => (reply_plain _ _ _ _).bind fun _ => plain_ok _
  case h_2 => exact quitReply_plain _ _ _
  all_goals exact (reply_plain _ _ _ _).bind fun _ => plain_ok _

theorem acceptRcpt_plain : Plain (acceptRcpt env key st) :=
  (addRcptToList_plain _ _ _).bind fun _ => (plain_demand _).bind fun _ =>
    (reply_plain _ _ _ _).bind fun _ => plain_ok _

theorem rcptToAnswer_plain : Plain (rcptToAnswer env key) := by
  unfold rcptToAnswer
  split
  case h_1 =>
    refine (checkEmailDomain_plain _).bind fun known => ?_
    cases known with
    | true => exact acceptRcpt_plain
    | false => exact (reply_plain _ _ _ _).bind fun _ => plain_ok _
  case h_2 => exact quitReply_plain _ _ _
  all_goals exact (reply_plain _ _ _ _).bind fun _ => plain_ok _

theorem greeting_plain (message : List UInt8) (st next : SmtpState) :
    Plain (copyToWriteBuffer key message >>= fun key => writeStatus env key st next) :=
  (copyToWriteBuffer_plain _ _).bind fun _ => writeStatus_plain _ _ _ _

theorem rcptToWrite_plain : Plain (rcptToWrite env key) := by
  unfold rcptToWrite
  split
  · refine (checkEmailDomain_plain _).bind fun known => ?_
    cases known <;> exact writeStatus_plain _ _ _ _
  · exact writeStatus_plain _ _ _ _

end Callbacks

end Smtpd
