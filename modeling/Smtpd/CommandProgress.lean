import Smtpd.CommandSession
import Smtpd.RecipientDomain
import Smtpd.RequestCapture

namespace Smtpd

open Checked CString Incremental

/-- What is captured of an argument leaves room for its NUL. -/
structure RequestParser.Fits (p : RequestParser) : Prop where
  size : p.request.bytes.length = 64
  last : p.request.bytes[31]? = some 0
  index : p.i.toNat ≤ 31

theorem requestParserInit_fits : requestParserInit.Fits := by
  constructor <;> decide

/-- What is captured in these bytes leaves room for its NUL, up to the end of a command or in all the commands
behind it as well. -/
def captureFits (further : Bool) (p : RequestParser) : List UInt8 → Bool
  | [] => true
  | c :: cs =>
    match requestParserFeed p c with
    | .ok q => decide (q.i.toNat ≤ 31) &&
        if q.state = .done then !further || captureFits further requestParserInit cs else captureFits further q cs
    | .error _ => false

/-- No argument captured in these bytes has more than 31 bytes, command by command. -/
def argumentsFit : RequestParser → List UInt8 → Bool := captureFits true

/-- No argument of the next command in these bytes has more than 31 bytes. -/
def argumentFits : RequestParser → List UInt8 → Bool := captureFits false

section Parsing

variable {p q : RequestParser} {c : UInt8}

theorem store_fits {offset : Nat} (h : p.Fits) (hlt : offset < 64) (hne : offset ≠ 31) :
    ∃ r, p.request.store offset c = .ok r ∧ r.bytes.length = 64 ∧ r.bytes[31]? = some 0 := by
  refine ⟨⟨p.request.bytes.set offset c⟩, if_pos hlt, ?_, ?_⟩
  · rw [List.length_set]
    exact h.size
  · rw [List.getElem?_set_ne hne]
    exact h.last

/-- A capture that stays in its array keeps the NUL behind it. -/
theorem feed_fits (h : p.Fits) (hf : requestParserFeed p c = .ok q) (hi : q.i.toNat ≤ 31) : q.Fits := by
  have hindex := h.index
  have hsucc : (p.i + 1).toNat = p.i.toNat + 1 := index_succ rfl (by omega)
  unfold requestParserFeed at hf
  split at hf
  case h_1 | h_2 | h_3 =>
    cases hf
    exact ⟨h.size, h.last, h.index⟩
  case h_4 =>
    obtain ⟨r, hr, hf⟩ := bind_ok hf
    cases hf
    have hlt : p.i.toNat < 31 := by
      simp only [hsucc] at hi
      omega
    obtain ⟨r', hr', hsize, hlast⟩ := @store_fits p c p.i.toNat h (by omega) (by omega)
    cases hr.symm.trans hr'
    exact ⟨hsize, hlast, hi⟩
  case h_5 =>
    obtain ⟨r, hr, hf⟩ := bind_ok hf
    cases hf
    obtain ⟨r', hr', hsize, hlast⟩ := @store_fits p c (32 + p.i.toNat) h (by omega) (by omega)
    cases hr.symm.trans hr'
    exact ⟨hsize, hlast, hi⟩
  case h_6 =>
    obtain ⟨r, hr, hf⟩ := bind_ok hf
    cases hf
    obtain ⟨r', hr', hsize, hlast⟩ := @store_fits p c 32 h (by omega) (by omega)
    cases hr.symm.trans hr'
    exact ⟨hsize, hlast, hi⟩

theorem argumentsFit_cons {cs : List UInt8} (hf : requestParserFeed p c = .ok q) :
    argumentsFit p (c :: cs) =
      (decide (q.i.toNat ≤ 31) && argumentsFit (if q.state = .done then requestParserInit else q) cs) := by
  unfold argumentsFit
  rw [captureFits, hf]
  dsimp only
  rw [Bool.not_true, Bool.false_or, apply_ite (captureFits true · cs)]

theorem captureFits_append {further : Bool} {bytes rest : List UInt8} (h : captureFits further p (bytes ++ rest) = true) :
    captureFits further p bytes = true := by
  induction bytes generalizing p with
  | nil => rfl
  | cons c cs ih =>
    rw [List.cons_append, captureFits] at h
    rw [captureFits]
    cases hf : requestParserFeed p c with
    | error e =>
      rw [hf] at h
      cases h
    | ok q =>
      rw [hf] at h
      obtain ⟨hi, hrest⟩ := Bool.and_eq_true_iff.mp h
      refine Bool.and_eq_true_iff.mpr ⟨hi, ?_⟩
      split_ifs at hrest ⊢
      · rcases Bool.or_eq_true_iff.mp hrest with hlast | hnext
        · exact Bool.or_eq_true_iff.mpr (Or.inl hlast)
        · exact Bool.or_eq_true_iff.mpr (Or.inr (ih hnext))
      · exact ih hrest

/-- The parser takes bytes whose captures fit. -/
theorem feedUntil_of_fits {further : Bool} {bytes : List UInt8} {errored : Bool} (h : p.Fits)
    (hfit : captureFits further p bytes = true) :
    ∃ q errored' tail, requestParser.feedUntil (p, errored) bytes = .ok ((q, errored'), tail) ∧ q.Fits := by
  induction bytes generalizing p errored with
  | nil => exact ⟨p, errored, [], rfl, h⟩
  | cons c cs ih =>
    rw [captureFits] at hfit
    cases hf : requestParserFeed p c with
    | error e =>
      rw [hf] at hfit
      cases hfit
    | ok q =>
      rw [hf] at hfit
      obtain ⟨hi, hrest⟩ := Bool.and_eq_true_iff.mp hfit
      have hq := feed_fits h hf (of_decide_eq_true hi)
      by_cases hd : q.state = .done
      · refine ⟨q, (requestIsDone q.state errored).2, cs, ?_, hq⟩
        simp [Parser.feedUntil, requestParser, hf, requestIsDone, hd]
      · rw [if_neg hd] at hrest
        obtain ⟨q', errored', tail, hq', hfits⟩ := @ih q (requestIsDone q.state errored).2 hq hrest
        refine ⟨q', errored', tail, ?_, hfits⟩
        rw [← hq']
        simp [Parser.feedUntil, requestParser, hf, requestIsDone, hd]

/-- An argument that fits is a string of at most 31 bytes. -/
theorem RequestParser.Fits.cstring (h : p.Fits) :
    ∃ address, CString.cstring p.request.bytes = some address ∧ address.length ≤ 31 := by
  obtain ⟨address, haddress⟩ := cstring_of_mem (List.mem_of_getElem? h.last)
  obtain ⟨hzero, rest, hbytes⟩ := cstring_eq_some haddress
  refine ⟨address, haddress, ?_⟩
  by_contra hlong
  have hlast := h.last
  rw [hbytes, List.getElem?_append_left (by omega)] at hlast
  exact hzero (List.mem_of_getElem? hlast)

theorem RequestParser.Fits.strncpy (h : p.Fits) : ∃ copy, CString.strncpy maxEmailLength p.request.bytes = some copy := by
  have hlen : ((p.request.bytes.take maxEmailLength).takeWhile (· ≠ 0)).length ≤ maxEmailLength :=
    (List.takeWhile_sublist _).length_le.trans (List.length_take_le _ _)
  have hsize := h.size
  have hmax : maxEmailLength = 40 := rfl
  refine ⟨_, if_neg ?_⟩
  rintro ⟨-, hle⟩
  omega

end Parsing

section Answers

variable {env : Env} {key key' : Key} {st next : SmtpState} {text : List UInt8} {n : Nat}

/-- An answer that is shorter than the buffer fits into it while it is empty. -/
theorem reply_of_room (hs : key.data.writeBuffer.Sized 2048) (hempty : key.data.writeBuffer.pending = [])
    (htext : text.length < 2048) (hn : n = text.length) : ∃ key', reply key st text n = .ok key' := by
  subst hn
  have hread := hs.valid.pending_eq_nil_iff.mp hempty
  have hzero : key.data.writeBuffer.read = 0 := (hs.valid.rewound hread).trans hs.data
  have hlimit := hs.valid.limit_le
  rw [hs.limit] at hlimit
  have hfit : key.data.writeBuffer.write + (text ++ [0]).length ≤ key.data.writeBuffer.raw.length := by
    rw [List.length_append, List.length_singleton]
    omega
  have hroom : text.length ≤ key.data.writeBuffer.room := by
    rw [hs.room_of_empty hempty]
    omega
  obtain ⟨wb₁, wb, hstore, hadv, -⟩ := bufferWriteAdv_spec hs.valid (text ++ [0]) hfit
    (n := text.length) (by simp) hroom
  have hptr : bufferWritePtr key.data.writeBuffer =
      .ok (key.data.writeBuffer.write, key.data.writeBuffer.room) := if_pos hs.valid.write_le
  simp only [reply, putString, hptr, ok_bind, hstore, hadv]
  exact ⟨_, rfl⟩

theorem writeStatus_progress (hs : key.data.writeBuffer.Sized 2048) (hreg : key.registered = true) :
    ∃ r, writeStatus env key st next = .ok r := by
  rcases writeStatus_eq env st next hs hreg with ⟨-, he⟩ | ⟨-, wb, -, -, ⟨-, he⟩ | ⟨-, he⟩⟩ <;> exact ⟨_, he⟩

/-- A connection that has just read a command that fits. -/
structure Key.Asks (env : Env) (key : Key) : Prop where
  output : key.data.writeBuffer.Sized 2048
  empty : key.data.writeBuffer.pending = []
  registered : key.registered = true
  memory : env.memory = true
  parser : key.data.requestParser.Fits
  mailfrom : key.data.mailfrom.length = 255

theorem Key.Asks.reply (h : key.Asks env) (st : SmtpState) (htext : text.length < 2048) (hn : n = text.length) :
    ∃ key', Smtpd.reply key st text n = .ok key' := reply_of_room h.output h.empty htext hn

theorem Key.Asks.quitReply (h : key.Asks env) (st : SmtpState) : ∃ r, Smtpd.quitReply env key st = .ok r := by
  have hroom : byeText.length < 2048 := by decide
  obtain ⟨key₁, hreply⟩ := h.reply (n := 9) st hroom (by decide)
  obtain ⟨wb, hsized, -, hkey⟩ := reply_pending h.output (by decide) hreply
  have hout : key₁.data.writeBuffer.Sized 2048 := by
    rw [hkey]
    exact hsized
  have hreg : key₁.registered = true := by
    rw [hkey]
    exact h.registered
  obtain ⟨r, hwrite⟩ := @writeStatus_progress env key₁ st .done hout hreg
  refine ⟨(.done, r.2), ?_⟩
  unfold Smtpd.quitReply
  rw [hreply, ok_bind, hwrite]
  rfl

/-- A reply with nothing else to it. -/
theorem Key.Asks.plain (h : key.Asks env) (htext : text.length < 2048) (hn : n = text.length) :
    ∃ r, (Smtpd.reply key st text n >>= fun key => (.ok (next, key) : Result (SmtpState × Key))) = .ok r := by
  obtain ⟨key₁, hreply⟩ := h.reply st htext hn
  exact ⟨(next, key₁), by rw [hreply, ok_bind]⟩

theorem Key.Asks.acceptRcpt (h : key.Asks env) (st : SmtpState) : ∃ r, Smtpd.acceptRcpt env key st = .ok r := by
  obtain ⟨address, haddress, hlen⟩ := h.parser.cstring
  obtain ⟨copy, hcopy⟩ := h.parser.strncpy
  have hadd : ∃ list, addRcptToList env key.data.rcptList key.data.requestParser.request.bytes = .ok list := by
    refine ⟨{ email := copy.set (maxEmailLength - 1) 0, fileFd := none, filename := none } :: key.data.rcptList, ?_⟩
    rw [addRcptToList, createRcptNode, if_pos h.memory, hcopy]
    rfl
  obtain ⟨list, hadd⟩ := hadd
  obtain ⟨key₁, hreply⟩ := @reply_of_room { key with data := { key.data with rcptList := list } } st
    (ascii "250 Rcpt to received - " ++ address ++ ascii "\r\n") _ h.output h.empty
    (by simp [ascii]; omega) rfl
  refine ⟨(.rcptToWrite, key₁), ?_⟩
  simp only [Smtpd.acceptRcpt, hadd, haddress, demand_some, ok_bind, hreply]

theorem Key.Asks.failedConnectionAnswer (h : key.Asks env) : ∃ r, Smtpd.failedConnectionAnswer env key = .ok r := by
  unfold Smtpd.failedConnectionAnswer
  split
  · exact h.quitReply _
  · exact ⟨_, rfl⟩

theorem Key.Asks.ehloAnswer (h : key.Asks env) : ∃ r, Smtpd.ehloAnswer env key = .ok r := by
  unfold Smtpd.ehloAnswer
  split
  · exact h.plain (by decide) rfl
  · exact h.plain (by decide) rfl
  · exact h.quitReply _
  · exact h.plain (by decide) (by decide)

theorem Key.Asks.mailFromAnswer (h : key.Asks env) : ∃ r, Smtpd.mailFromAnswer env key = .ok r := by
  unfold Smtpd.mailFromAnswer
  split
  · obtain ⟨address, haddress, hlen⟩ := h.parser.cstring
    have hmail := h.mailfrom
    have hfit : address.length < key.data.mailfrom.length := by omega
    obtain ⟨key₁, hreply⟩ := @reply_of_room
      { key with data := { key.data with mailfrom := overwrite key.data.mailfrom 0 (address ++ [0]) } } .mailFromRead
      (ascii "250 Mail from received - " ++ address ++ ascii "\r\n") _ h.output h.empty
      (by simp [ascii]; omega) rfl
    refine ⟨(.mailFromWrite, key₁), ?_⟩
    simp only [copyMailfrom, haddress, demand_some, ok_bind, if_pos hfit, hreply]
  · exact h.quitReply _
  · exact h.plain (by decide) (by decide)
  · exact h.plain (by decide) (by decide)

theorem Key.Asks.rcptToAnswer (h : key.Asks env) : ∃ r, Smtpd.rcptToAnswer env key = .ok r := by
  unfold Smtpd.rcptToAnswer
  split
  · obtain ⟨address, haddress, -⟩ := h.parser.cstring
    rw [checkEmailDomain_eq haddress, ok_bind]
    split
    · exact h.acceptRcpt _
    · exact h.plain (by decide) (by decide)
  · exact h.quitReply _
  · exact h.plain (by decide) (by decide)
  · exact h.plain (by decide) (by decide)

theorem Key.Asks.dataAnswer (h : key.Asks env) (hc : key.data.requestParser.command ≠ .data) :
    ∃ r, Smtpd.dataAnswer env key = .ok r := by
  unfold Smtpd.dataAnswer
  split
  next he => exact absurd he hc
  · exact h.quitReply _
  · exact h.acceptRcpt _
  · exact h.plain (by decide) (by decide)

/-- The hooks behind a state that reads commands do not fail. -/
theorem changeState_progress (hreads : st.readsRequest = true) :
    ∃ key', changeState env st next key = .ok key' := by
  have hdeparture : st.departure env = none := by
    cases st <;> first | rfl | cases hreads
  unfold changeState
  rw [hdeparture]
  unfold SmtpState.arrival
  split_ifs
  · exact ⟨_, rfl⟩
  · exact ⟨_, rfl⟩
  · exact ⟨_, rfl⟩

/-- Where a command is read, a read event fails only with the parser or with the answer. -/
theorem requestRead_progress {answer : Env → Key → Result (SmtpState × Key)} (hs : key.data.readBuffer.Sized 2048)
    (hreg : key.registered = true)
    (hfed : ∃ q errored rest, requestParser.feedUntil (key.data.requestParser, false) (key.atHand env) =
      .ok ((q, errored), rest) ∧ q.Fits)
    (hanswer : ∀ {rb g received p errored}, requestParser.feedUntil (key.data.requestParser, false) (key.atHand env) =
      .ok ((p, errored), rb.pending) → p.state = .done → p.Fits → ∃ r, answer env (key.asking rb g received p) = .ok r) :
    ∃ r, readStatus env key (fun env key => requestProcess env key st answer) = .ok r := by
  obtain ⟨q, errored, rest, hfed, hfits⟩ := hfed
  rcases readStatus_eq env (fun env key => requestProcess env key st answer) hs with
    ⟨-, g, he⟩ | ⟨rb, g, received, hrb, hhand, -, -, he⟩
  · exact ⟨_, he⟩
  · rw [he]
    have hrb' : (key.withInput rb g received).data.readBuffer.Sized 2048 := hrb
    have hfed' : requestParser.feedUntil (key.data.requestParser, false) rb.pending = .ok ((q, errored), rest) := by
      rw [hhand]
      exact hfed
    rcases requestProcess_eq env st answer hrb' hreg with
      ⟨e, hconsume, -⟩ | ⟨rb', p, errored', -, hfeed, ⟨-, hp⟩ | ⟨hd, hp⟩⟩
    · obtain ⟨b, hok, -⟩ := consume_ok hrb.valid hfed'
      cases hconsume.symm.trans hok
    · exact ⟨_, hp⟩
    · have hsame := hfed'.symm.trans hfeed
      cases hsame
      rw [hp]
      exact hanswer hfed hd hfits

/-- What is heard of commands that fit is served without a fault. -/
theorem Key.Hears.step {rest : List UInt8} (hk : key.Agrees key.state) (hears : key.Hears env)
    (hany : key.atHand env ≠ []) (hparser : key.data.requestParser.Fits) (hmail : key.data.mailfrom.length = 255)
    (hshort : argumentsFit key.data.requestParser (key.atHand env ++ rest) = true) :
    ∃ key', sessionStep key (.ready .read env) = .ok key' := by
  have hheeds := hears.heeds hk
  have hreads := hears.reads
  have hempty := hk.quiet (interest_of_reads hreads)
  have hfed : ∃ q errored rest, requestParser.feedUntil (key.data.requestParser, false) (key.atHand env) =
      .ok ((q, errored), rest) ∧ q.Fits := by
    obtain ⟨q, errored, tail, hq, hfits⟩ :=
      @feedUntil_of_fits key.data.requestParser _ _ false hparser (captureFits_append hshort)
    exact ⟨q, errored, tail, hq, hfits⟩
  have hasks : ∀ {rb g received p}, p.Fits → (key.asking rb g received p).Asks env := fun hfits =>
    ⟨hk.output, hempty, hheeds.1, hears.memory, hfits, hmail⟩
  have hcall : ∃ f r, key.state.onRead = some f ∧ f env key = .ok r := by
    have hinput := hk.sound.input
    cases hst : key.state with
    | failedConnectionRead =>
      obtain ⟨r, hr⟩ := @requestRead_progress env key .failedConnectionRead _ hinput hheeds.1 hfed
        fun _ _ hfits => (hasks hfits).failedConnectionAnswer
      exact ⟨_, r, rfl, hr⟩
    | ehloRead =>
      obtain ⟨r, hr⟩ := @requestRead_progress env key .ehloRead _ hinput hheeds.1 hfed
        fun _ _ hfits => (hasks hfits).ehloAnswer
      exact ⟨_, r, rfl, hr⟩
    | mailFromRead =>
      obtain ⟨r, hr⟩ := @requestRead_progress env key .mailFromRead _ hinput hheeds.1 hfed
        fun _ _ hfits => (hasks hfits).mailFromAnswer
      exact ⟨_, r, rfl, hr⟩
    | rcptToRead =>
      obtain ⟨r, hr⟩ := @requestRead_progress env key .rcptToRead _ hinput hheeds.1 hfed
        fun _ _ hfits => (hasks hfits).rcptToAnswer
      exact ⟨_, r, rfl, hr⟩
    | dataRead =>
      obtain ⟨r, hr⟩ := @requestRead_progress env key .dataRead _ hinput hheeds.1 hfed
        fun fed done hfits => (hasks hfits).dataAnswer fun hc => hears.no_data hk fed hany done ⟨hst, hc⟩
      exact ⟨_, r, rfl, hr⟩
    | _ =>
      rw [hst] at hreads
      cases hreads
  obtain ⟨f, ⟨next, key₁⟩, hf, hr⟩ := hcall
  obtain ⟨key₂, hhooks⟩ := @changeState_progress env key₁ key.state next hreads
  have hsettle : ∃ key', settle key.data.stm next key₂ = .ok key' := by
    have hturn := onRead_turn hk.sound hk.output hheeds.1 hf hr
    have hreg := (changeState_turned (hturn.turned hk hheeds.1) hhooks).registered
    unfold settle smtpDone
    split_ifs
    · exact ⟨_, if_pos hreg⟩
    · exact ⟨_, rfl⟩
  obtain ⟨key', hsettle⟩ := hsettle
  refine ⟨key', ?_⟩
  simp only [sessionStep, if_pos (show key.registered = true ∧ key.interest = .read from hheeds),
    smtpRead_eq hk.sound.machine, react, hf, demand_some, ok_bind, hr, hhooks, hsettle]

end Answers

end Smtpd
