import Smtpd.ReplyStream

namespace Smtpd

open Checked CString Incremental Runs

/-- What the commands of a client act on, with everything that has been answered. -/
structure Session where
  state : SmtpState
  parser : RequestParser
  mailfrom : List UInt8
  rcptList : List RcptNode
  log : List Entry
  output : List UInt8

def Key.session (key : Key) : Session where
  state := key.state
  parser := key.data.requestParser
  mailfrom := key.data.mailfrom
  rcptList := key.data.rcptList
  log := key.log
  output := sentBytes key.os.trace

namespace Session

def dialogue (s : Session) (p : RequestParser) : Dialogue where
  state := s.state
  command := p.command
  request := p.request
  mailfrom := s.mailfrom
  rcpts := s.rcptList.map RcptNode.email
  log := s.log

/-- The answer to a command other than `QUIT`, the state that sends it, and the sender and the
recipients that are known then. What `DATA` begins is not part of this. -/
def serve (s : Session) (p : RequestParser) : Result (List UInt8 × SmtpState × List UInt8 × List RcptNode) :=
  match (s.dialogue p).refusal p.command p.request with
  | some next => .ok (s.state.refusalText p.command, next, s.mailfrom, s.rcptList)
  | none =>
    if p.command = .data then .error .undefined
    else if s.state = .ehloRead then .ok (p.command.helloText, .ehloWrite, s.mailfrom, s.rcptList)
    else do
      let address ← demand .undefined (cstring p.request.bytes)
      if s.state = .mailFromRead then
        .ok (ascii "250 Mail from received - " ++ address ++ ascii "\r\n", .mailFromWrite,
          overwrite s.mailfrom 0 (address ++ [0]), s.rcptList)
      else do
        let copy ← demand .undefined (strncpy maxEmailLength p.request.bytes)
        .ok (ascii "250 Rcpt to received - " ++ address ++ ascii "\r\n", .rcptToWrite, s.mailfrom,
          { email := copy.set (maxEmailLength - 1) 0, fileFd := none, filename := none } :: s.rcptList)

/-- A command is complete, and its answer is sent. -/
def answer (s : Session) (p : RequestParser) : Result Session :=
  if p.command = .quit then
    .ok { s with
      state := .done
      parser := p
      log := s.log ++ [.answered s.state .quit p.request byeText]
      output := s.output ++ byeText }
  else if s.state = .failedConnectionRead then
    .ok { s with
      parser := requestParserInit
      log := s.log ++ [.arrived s.state.index]
      output := s.output ++ SmtpState.failedConnectionWrite.greeting.getD [] }
  else do
    let (text, write, mailfrom, rcptList) ← s.serve p
    let next ← demand .undefined { s.dialogue p with state := write }.afterReply
    .ok {
      state := next
      parser := requestParserInit
      mailfrom
      rcptList
      log := s.log ++ [.answered s.state p.command p.request text, .arrived next.index]
      output := s.output ++ text }

/-- The dialogue, byte by byte. A connection that is over takes no more. -/
def feed (s : Session) (c : UInt8) : Result Session :=
  if s.state.readsRequest then do
    let p ← requestParserFeed s.parser c
    if p.state = .done then s.answer p else .ok { s with parser := p }
  else .ok s

def feedAll (s : Session) (bytes : List UInt8) : Result Session := bytes.foldlM feed s

@[simp] theorem feedAll_nil (s : Session) : s.feedAll [] = .ok s := rfl

@[simp] theorem feedAll_cons (s : Session) (c : UInt8) (cs : List UInt8) :
    s.feedAll (c :: cs) = s.feed c >>= fun s => s.feedAll cs := rfl

theorem feedAll_singleton (s : Session) (c : UInt8) : s.feedAll [c] = s.feed c := by
  cases h : s.feed c <;> simp [h]

theorem feedAll_append (s : Session) (xs ys : List UInt8) :
    s.feedAll (xs ++ ys) = s.feedAll xs >>= fun s => s.feedAll ys := by
  simp [feedAll, List.foldlM_append]

theorem feedAll_over {s : Session} (h : s.state.readsRequest = false) (bytes : List UInt8) :
    s.feedAll bytes = .ok s := by
  induction bytes with
  | nil => rfl
  | cons c cs ih => simp [feed, h, ih]

/-- A call of the parser takes the bytes up to the end of a command, or all of them. -/
theorem feedAll_fed {s : Session} {p : RequestParser} {errored errored' : Bool} {bytes rest : List UInt8}
    (hreads : s.state.readsRequest = true) (hstart : bytes ≠ [] ∨ s.parser.state ≠ .done)
    (h : requestParser.feedUntil (s.parser, errored) bytes = .ok ((p, errored'), rest)) :
    ∃ front, bytes = front ++ rest ∧
      s.feedAll front = if p.state = .done then s.answer p else .ok { s with parser := p } := by
  induction bytes generalizing s errored with
  | nil =>
    cases h
    have hnot : s.parser.state ≠ .done := hstart.resolve_left fun hn => hn rfl
    exact ⟨[], rfl, (if_neg hnot).symm⟩
  | cons c cs ih =>
    obtain ⟨⟨q, errored₁⟩, hq, h⟩ := bind_ok h
    obtain ⟨r, hr, hq⟩ := bind_ok hq
    cases hq
    have hfeed : s.feed c = if q.state = .done then s.answer q else .ok { s with parser := q } := by
      rw [feed, if_pos hreads, hr]
      rfl
    by_cases hd : q.state = .done
    · have hdone : requestParser.done (q, (requestIsDone q.state errored).2) = true := decide_eq_true hd
      rw [if_pos hdone] at h
      cases h
      refine ⟨[c], rfl, ?_⟩
      rw [feedAll_singleton, hfeed]
    · have hdone : requestParser.done (q, (requestIsDone q.state errored).2) = false := decide_eq_false hd
      rw [hdone] at h
      obtain ⟨front, hfront, hrest⟩ := @ih { s with parser := q } _ hreads (Or.inr hd) h
      refine ⟨c :: front, by rw [hfront, List.cons_append], ?_⟩
      rw [feedAll_cons, hfeed, if_neg hd]
      exact hrest

end Session

section Exchanges

variable {env : Env} {key key₁ key₂ key' : Key} {st next : SmtpState} {text : List UInt8} {more : List Entry}
  {es : List Event}

theorem addRcptToList_eq {head list : List RcptNode} {arg : List UInt8} (h : addRcptToList env head arg = .ok list) :
    ∃ copy, strncpy maxEmailLength arg = some copy ∧
      list = { email := copy.set (maxEmailLength - 1) 0, fileFd := none, filename := none } :: head := by
  obtain ⟨node, hnode, h⟩ := bind_ok h
  cases h
  unfold createRcptNode at hnode
  split_ifs at hnode
  obtain ⟨copy, hcopy, hnode⟩ := bind_ok hnode
  cases hnode
  exact ⟨copy, demand_ok hcopy, rfl⟩

theorem refusal_congr {d d' : Dialogue} {command : RequestCommand} {request : Request}
    (hstate : d.state = d'.state) : d.refusal command request = d'.refusal command request := by
  unfold Dialogue.refusal
  rw [hstate]

/-- What serves a command of a connection serves it in its session. -/
theorem Key.Serves.serve {s : Session} {p : RequestParser} (h : key.Serves env st text next more key₁)
    (hs : s.state = st) (hm : s.mailfrom = key.data.mailfrom) (hl : s.rcptList = key.data.rcptList)
    (hp : key.data.requestParser = p) (hdata : ¬ (st = .dataRead ∧ p.command = .data)) :
    s.serve p = .ok (text, next, key₁.data.mailfrom, key₁.data.rcptList) ∧ more = [] := by
  subst hp
  have hrefusal : (s.dialogue key.data.requestParser).refusal key.data.requestParser.command
      key.data.requestParser.request = (key.dialogue st).refusal key.data.requestParser.command
        key.data.requestParser.request := refusal_congr hs
  unfold Session.serve
  rw [hrefusal]
  cases h with
  | greeted hello =>
    have hnone : (key.dialogue .ehloRead).refusal key.data.requestParser.command
        key.data.requestParser.request = none := if_pos hello
    have hc : key.data.requestParser.command ≠ .data := by
      rcases hello with hello | hello <;> rw [hello] <;> decide
    simp [hnone, hc, hs, hm, hl]
  | refused stays refusal => simp [refusal, hs, hm, hl]
  | sender mail copied =>
    have hnone : (key.dialogue .mailFromRead).refusal key.data.requestParser.command
        key.data.requestParser.request = none := if_pos mail
    obtain ⟨address, haddress, copied⟩ := bind_ok copied
    split_ifs at copied
    cases copied
    rw [hnone]
    simp [mail, hs, hm, hl, demand_ok haddress]
  | @recipient _ _ email rcpt takes added given =>
    obtain ⟨copy, hcopy, rfl⟩ := addRcptToList_eq added
    have hnone : (key.dialogue st).refusal key.data.requestParser.command
        key.data.requestParser.request = none := by
      rcases takes with ⟨hst, hcheck⟩ | hst
      · obtain rfl : st = .rcptToRead := hst
        simp [Dialogue.refusal, Key.dialogue, rcpt, hcheck]
      · obtain rfl : st = .dataRead := hst
        simp [Dialogue.refusal, Key.dialogue, rcpt]
    have hother : s.state ≠ .ehloRead ∧ s.state ≠ .mailFromRead := by
      rw [hs]
      rcases takes with ⟨hst, -⟩ | hst
      · obtain rfl : st = .rcptToRead := hst
        decide
      · obtain rfl : st = .dataRead := hst
        decide
    rw [hnone]
    simp [rcpt, hother, hm, hl, given, hcopy]
  | data data => exact absurd ⟨rfl, data⟩ hdata

/-- An answer, if there is one, is sent to its end. -/
inductive Key.Replied (key : Key) : Key → Prop
  | quiet (waits : key.state.interest ≠ .write) : key.Replied key
  | sent {es : List Event} {key' : Key} (writes : key.state.interest = .write) (takes : ∀ ev ∈ es, Event.SendsSome ev)
      (stays : Runs.Meets sessionStep (fun k _ => k.state = key.state) key es)
      (runs : Runs.run sessionStep key es = .ok key') (left : key'.state ≠ key.state)
      (whole : ∀ text ∈ key.state.greeting, sentBytes key'.os.trace = sentBytes key.os.trace ++ text) :
      key.Replied key'

theorem Key.Replied.eq_of_quiet (h : key.Replied key') (hn : key.state.interest ≠ .write) : key' = key := by
  cases h with
  | quiet => rfl
  | sent writes => exact absurd writes hn

/-- Sending an answer changes the state as the answer says, and starts on the next command. -/
structure Key.Left (key : Key) (next : SmtpState) (key' : Key) : Prop where
  state : key'.state = next
  parser : key'.data.requestParser = (key.arrive next).data.requestParser
  log : key'.log = (key.arrive next).log
  mailfrom : key'.data.mailfrom = key.data.mailfrom
  rcptList : key'.data.rcptList = key.data.rcptList
  readBuffer : key'.data.readBuffer = key.data.readBuffer

theorem run_left (hk : key.Agrees st) (hw : st.interest = .write) (hst : st ≠ .mailInfoWrite)
    (hafter : (key.dialogue st).afterReply = some next) (hsome : ∀ ev ∈ es, ev.SendsSome)
    (stays : Meets sessionStep (fun key _ => key.state = st) key es) (h : run sessionStep key es = .ok key')
    (left : key'.state ≠ st) : key.Left next key' := by
  have hmeets := stays.and (Meets.of_events (C := fun _ ev => Event.SendsSome ev) fun ev hev _ => hsome ev hev)
  have hrun : (key'.state = st → key'.Agrees st ∧ key'.data.requestParser = key.data.requestParser ∧
        key'.log = key.log ∧ key'.data.mailfrom = key.data.mailfrom ∧ key'.data.rcptList = key.data.rcptList ∧
        key'.data.readBuffer = key.data.readBuffer) ∧
      (key'.state ≠ st → key.Left next key') := by
    refine run_invariant (I := fun _ key' => (key'.state = st → key'.Agrees st ∧
        key'.data.requestParser = key.data.requestParser ∧ key'.log = key.log ∧
        key'.data.mailfrom = key.data.mailfrom ∧ key'.data.rcptList = key.data.rcptList ∧
        key'.data.readBuffer = key.data.readBuffer) ∧ (key'.state ≠ st → key.Left next key')) ?_ ?_ hmeets h
    · have hstate := hk.sound.machine.state_eq
      exact ⟨fun _ => ⟨hk, rfl, rfl, rfl, rfl, rfl⟩, fun hn => absurd hstate hn⟩
    · rintro xs ev key₁ key₂ - ⟨hstays, -⟩ ⟨hstate, hev⟩ hstep
      obtain ⟨hk₁, hparser, hlog, hmail, hlist, hrb⟩ := hstays hstate
      have hk₂ := sessionStep_agrees (hstate.symm ▸ hk₁) hstep
      rcases sessionStep_sending hk₁ hw hev hstep with
        ⟨globals, tree, fds, rfl⟩ | ⟨env, next', wb, sent, -, hsending, -, hnext⟩
      · exact ⟨fun _ => ⟨hstate ▸ hk₂, hparser, hlog, hmail, hlist, hrb⟩, fun hn => absurd hstate hn⟩
      · rcases hsending.goes with ⟨-, rfl, hparser', hlog', hlist'⟩ | ⟨-, hafter', hparser', hlog', hlist'⟩
        · refine ⟨fun he => ⟨he ▸ hk₂, hparser'.trans hparser, hlog'.trans hlog, hsending.mailfrom.trans hmail,
            hlist'.trans hlist, hsending.readBuffer.trans hrb⟩, fun hn => absurd hnext hn⟩
        · have hsame : (key₁.dialogue st).afterReply = (key.dialogue st).afterReply :=
            afterReply_congr rfl (congrArg RequestParser.command hparser) (congrArg RequestParser.request hparser)
          cases hafter'.symm.trans (hsame.trans hafter)
          have hne : next ≠ st := by
            rintro rfl
            cases (afterReply_interest hafter).symm.trans hw
          obtain ⟨harrive, harrive'⟩ := arrive_congr hparser hlog next
          exact ⟨fun he => absurd (hnext.symm.trans he) hne, fun _ => ⟨hnext, hparser'.trans harrive,
            hlog'.trans harrive', hsending.mailfrom.trans hmail, (hlist' hst).trans hlist,
            hsending.readBuffer.trans hrb⟩⟩
  exact hrun.2 left

/-- A command is served in a state that is not the one of refused connections, and answered in one
that sends what waits in the buffer. -/
theorem Key.Serves.states (h : key.Serves env st text next more key₁) :
    st ≠ .failedConnectionRead ∧ next ≠ .mailInfoWrite ∧ next.greeting = none ∧
      (next = .dataWrite → key.data.requestParser.command = .data → st = .dataRead) := by
  cases h with
  | greeted => exact ⟨by decide, by decide, rfl, by simp⟩
  | refused stays refusal =>
    refine ⟨?_, ?_⟩
    · rintro rfl
      cases refusal
    · unfold Dialogue.refusal at refusal
      split at refusal
      case h_5 => cases refusal
      all_goals
        split_ifs at refusal
        all_goals
          cases refusal
          simp_all [SmtpState.greeting, Key.dialogue]
  | sender => exact ⟨by decide, by decide, rfl, by simp⟩
  | recipient rcpt takes =>
    refine ⟨?_, by decide, rfl, fun _ hc => ?_⟩
    · rintro rfl
      rcases takes with ⟨hst, -⟩ | hst <;> cases hst
    · cases rcpt.symm.trans hc
  | data => exact ⟨by decide, by decide, rfl, fun _ _ => rfl⟩

theorem afterReply_of_write {d : Dialogue} (h : d.state.interest = .write) : ∃ next, d.afterReply = some next := by
  unfold Dialogue.afterReply
  split <;> first | exact ⟨_, rfl⟩ | skip
  cases hst : d.state <;> simp_all [SmtpState.interest]

/-- A state that waits to read, but not for a message, reads commands. -/
theorem reads_of_interest (h : next.interest = .read) (hn : next ≠ .mailInfoRead) : next.readsRequest = true := by
  cases next <;> first | rfl | exact absurd rfl hn | cases h

/-- The session behind an answer. -/
theorem Key.Left.session {bytes : List UInt8} (h : key.Left next key') (hreads : next.readsRequest = true)
    (hbytes : sentBytes key'.os.trace = sentBytes key.os.trace ++ bytes) :
    key'.session = { key.session with
      state := next
      parser := requestParserInit
      log := key.session.log ++ [.arrived next.index]
      output := key.session.output ++ bytes } := by
  have hparser := h.parser
  have hlog := h.log
  simp only [Key.arrive, hreads, if_true] at hparser hlog
  rw [Key.session, h.state, hparser, h.mailfrom, h.rcptList, hlog, hbytes]
  rfl

/-- What a turn of a state that reads commands leaves, the session gets and the buffers keep. -/
theorem Key.Passes.session (hreads : st.readsRequest = true) (hn : next = st ∨ next.readsRequest = false)
    (hreg : key₂.registered = true) (hgo : ¬ (next = .error ∨ next = .done))
    (h : key.Passes env st next key₁ key₂ key') :
    key'.session = { key₁.session with state := next } ∧
      key'.data.readBuffer = key₁.data.readBuffer ∧ key'.data.writeBuffer = key₁.data.writeBuffer := by
  have hplain : st ≠ .dataWrite ∧ st ≠ .mailInfoWrite := by
    constructor <;> rintro rfl <;> cases hreads
  have hsame : key₂ = key₁ := by
    rcases hn with rfl | hn
    · exact (changeState_effect h.hooks).same rfl
    · exact changeState_same hplain.1 hplain.2 hn h.hooks
  have hstate : key'.state = next := settle_state h.settled
  rcases settle_eq hreg h.settled with ⟨hend, -⟩ | ⟨-, rfl⟩
  · exact absurd hend hgo
  · subst hsame
    refine ⟨?_, rfl, rfl⟩
    rw [Key.session, hstate]
    rfl

section Answers

variable {rb : Buffer} {g : Globals} {received : List (List UInt8)} {p : RequestParser} {errored : Bool}

/-- The session of a connection that has read a command to its end. -/
theorem asking_session (key : Key) (rb : Buffer) (g : Globals) (received : List (List UInt8)) (p : RequestParser) :
    (key.asking rb g received p).session = { key.session with parser := p } := by
  simp [Key.session, Key.asking, Key.withInput, Key.withRequest, Key.state]

/-- What is at hand does not complete a command. -/
theorem listened_session (hreads : st.readsRequest = true) (hst : key.state = st) (hany : key.atHand env ≠ [])
    (hreg : key₂.registered = true) (hreplied : key'.Replied key₁)
    (fed : requestParser.feedUntil (key.data.requestParser, false) (key.atHand env) =
      .ok ((p, errored), rb.pending)) (waits : p.state ≠ .done)
    (h : key.Passes env st st ((key.withInput rb g received).withRequest rb p) key₂ key') :
    ∃ front, key.atHand env = front ++ key₁.data.readBuffer.pending ∧ key.session.feedAll front = .ok key₁.session := by
  have hread := interest_of_reads hreads
  obtain ⟨hsession, hrb, -⟩ := h.session hreads (Or.inl rfl) hreg (not_over_of_interest hread (by decide))
  have hstate : key'.state = st := settle_state h.settled
  have hquiet := hreplied.eq_of_quiet (by rw [hstate, hread]; decide)
  have hs : key.session.state.readsRequest = true := by
    show key.state.readsRequest = true
    rw [hst, hreads]
  obtain ⟨front, hfront, hfed⟩ := Session.feedAll_fed hs (Or.inl hany) fed
  refine ⟨front, ?_, ?_⟩
  · rw [hquiet, hrb]
    exact hfront
  · rw [hfed, if_neg waits, hquiet, hsession]
    simp [Key.session, Key.withInput, Key.withRequest, hst]

theorem quit_session {wb : Buffer} {i : Interest} {sent : List (List UInt8)} (hreads : st.readsRequest = true)
    (hst : key.state = st) (hreg : key₂.registered = true) (hc : p.command = .quit)
    (hbye : sentBytes key'.os.trace = sentBytes key.os.trace ++ byeText)
    (h : key.Passes env st .done { (key.asking rb g received p).withOutput wb i sent with
      log := key.log ++ [.answered st .quit p.request byeText] } key₂ key') :
    key.session.answer p = .ok key'.session ∧ key'.data.readBuffer = rb := by
  have hplain : st ≠ .dataWrite ∧ st ≠ .mailInfoWrite := by
    constructor <;> rintro rfl <;> cases hreads
  have hstate : key'.state = .done := settle_state h.settled
  obtain rfl := changeState_same hplain.1 hplain.2 rfl h.hooks
  rcases settle_eq hreg h.settled with ⟨-, he⟩ | ⟨hgo, -⟩
  · have hsession : key'.session = { key.session with
        state := .done
        parser := p
        log := key.session.log ++ [.answered key.session.state .quit p.request byeText]
        output := key.session.output ++ byeText } := by
      rw [Key.session, hstate, hbye, he]
      simp [Key.session, Key.withOutput, Key.asking, Key.withRequest, Key.withInput, hst]
    rw [Session.answer, if_pos hc, hsession]
    exact ⟨rfl, congrArg (fun key : Key => key.data.readBuffer) he⟩
  · exact absurd (Or.inr rfl) hgo

theorem turnedAway_session (hk : key'.Agrees key'.state) (hst : key.state = .failedConnectionRead)
    (hreg : key₂.registered = true) (hc : p.command ≠ .quit) (hreplied : key'.Replied key₁)
    (h : key.Passes env .failedConnectionRead .failedConnectionWrite (key.asking rb g received p) key₂ key') :
    key.session.answer p = .ok key₁.session ∧ key₁.data.readBuffer = rb := by
  obtain ⟨hsession, hrb, -⟩ := h.session rfl (Or.inr rfl) hreg (by decide)
  have hstate : key'.state = .failedConnectionWrite := settle_state h.settled
  cases hreplied with
  | quiet waits =>
    rw [hstate] at waits
    exact absurd rfl waits
  | sent writes takes stays runs left whole =>
    rw [hstate] at hk stays left whole
    have hleft : key'.Left .failedConnectionRead key₁ := run_left hk rfl (by decide) rfl takes stays runs left
    have hs : key.session.state = .failedConnectionRead := hst
    refine ⟨?_, hleft.readBuffer.trans hrb⟩
    rw [hleft.session rfl (whole _ rfl), hsession, asking_session, Session.answer, if_neg hc, if_pos hs, hs]
    rfl

theorem served_session {key₀ : Key} {wb : Buffer} (hk : key'.Agrees key'.state) (hreads : st.readsRequest = true)
    (hst : key.state = st) (hreg : key₂.registered = true) (hquiet : key.data.writeBuffer.pending = [])
    (hreplied : key'.Replied key₁) (hnodata : ¬ (st = .dataRead ∧ p.command = .data))
    (serves : (key.asking rb g received p).Serves env st text next more key₀)
    (pending : wb.pending = (key.asking rb g received p).data.writeBuffer.pending ++ text)
    (h : key.Passes env st next { key₀ with
      data := { key₀.data with writeBuffer := wb }
      log := key.log ++ .answered st p.command p.request text :: more } key₂ key') :
    key.session.answer p = .ok key₁.session ∧ key₁.data.readBuffer = rb := by
  obtain ⟨hfailed, hstored, hplain, hdata⟩ := serves.states
  obtain ⟨-, hwrites⟩ := serves.text_ne_nil
  obtain ⟨-, -, -, hstm, hrb₀, hparser₀, -⟩ := serves.same
  have hnext : next.readsRequest = false := readsRequest_of_write hwrites
  obtain ⟨hsession, hrb, hwb⟩ := h.session hreads (Or.inr hnext) hreg (not_over_of_interest hwrites (by decide))
  have hstate : key'.state = next := settle_state h.settled
  have hwait : key'.data.writeBuffer.pending = text := by
    have hnil : (key.asking rb g received p).data.writeBuffer.pending = [] := hquiet
    rw [hwb]
    show wb.pending = text
    rw [pending, hnil, List.nil_append]
  rw [hstate] at hk
  obtain ⟨after, hafter⟩ := @afterReply_of_write (key'.dialogue next) hwrites
  cases hreplied with
  | quiet waits =>
    rw [hstate] at waits
    exact absurd hwrites waits
  | sent writes takes stays runs left =>
    rw [hstate] at stays left
    have hleft := run_left hk hwrites hstored hafter takes stays runs left
    have hout := plain_window hk hwrites hplain takes stays runs left
    have hparser : key'.data.requestParser = p := (congrArg Session.parser hsession).trans hparser₀
    have hafterReads : after.readsRequest = true := by
      refine reads_of_interest (afterReply_interest hafter) ?_
      rintro rfl
      obtain ⟨hst', hc⟩ := afterReply_mailInfoRead hafter
      have hcommand : p.command = .data := (congrArg RequestParser.command hparser).symm.trans hc
      exact hnodata ⟨hdata hst' hcommand, hcommand⟩
    obtain ⟨hserve, rfl⟩ := @Key.Serves.serve env _ _ st next text more key.session p serves hst rfl rfl rfl hnodata
    have hsame : ({ key.session.dialogue p with state := next } : Dialogue).afterReply =
        (key'.dialogue next).afterReply :=
      afterReply_congr rfl (congrArg RequestParser.command hparser).symm (congrArg RequestParser.request hparser).symm
    have hquit : p.command ≠ .quit := serves.not_quit
    have hfirst : key.session.state ≠ .failedConnectionRead := by
      show key.state ≠ _
      rw [hst]
      exact hfailed
    have hsilent : sentBytes key₀.os.trace = sentBytes key.os.trace :=
      serves.silent.trans (congrArg Session.output (asking_session key rb g received p))
    refine ⟨?_, (hleft.readBuffer.trans hrb).trans hrb₀⟩
    rw [Session.answer, if_neg hquit, if_neg hfirst, hserve, ok_bind]
    simp only [hsame, hafter, demand_some, ok_bind]
    rw [hleft.session hafterReads hout, hwait, hsession]
    simp only [Key.session, hst, hsilent, List.append_assoc, List.cons_append, List.nil_append]

end Answers

/-- A connection that is about to read some of a command, but not the one that begins a message. -/
structure Key.Hears (key : Key) (env : Env) : Prop where
  reads : key.state.readsRequest = true
  memory : env.memory = true
  dialogue : key.state = .dataRead → ∀ request, key.asked .dataRead (.ready .read env) ≠ some (.data, request)

theorem Key.Hears.heeds (hk : key.Agrees key.state) (h : key.Hears env) : key.Heeds .read := by
  have hread := interest_of_reads h.reads
  refine ⟨hk.registered.mpr ?_, hk.interest.trans hread⟩
  rw [hread]
  decide

theorem Key.Hears.no_data {p : RequestParser} {errored : Bool} {rest : List UInt8} (hk : key.Agrees key.state)
    (h : key.Hears env) (fed : requestParser.feedUntil (key.data.requestParser, false) (key.atHand env) =
      .ok ((p, errored), rest)) (hany : key.atHand env ≠ []) (done : p.state = .done) : ¬ (key.state = .dataRead ∧ p.command = .data) := by
  rintro ⟨hst, hc⟩
  obtain ⟨hreg, hint⟩ := h.heeds hk
  have hasked : key.asked .dataRead (.ready .read env) = some (p.command, p.request) := by
    rw [Key.asked, if_pos ⟨hreg, hint, rfl, hany⟩, fed]
    exact if_pos done
  rw [hc] at hasked
  exact h.dialogue hst _ hasked

/-- A read event, with what is sent for it, is a piece of the session. -/
theorem exchange_session (hk : key.Agrees key.state) (hears : key.Hears env) (hany : key.atHand env ≠ [])
    (hstep : sessionStep key (.ready .read env) = .ok key₁)
    (hbye : key₁.state = .done → sentBytes key₁.os.trace = sentBytes key.os.trace ++ byeText)
    (hreplied : key₁.Replied key₂) :
    ∃ front, key.atHand env = front ++ key₂.data.readBuffer.pending ∧ key.session.feedAll front = .ok key₂.session := by
  have hreads := hears.reads
  have hread := interest_of_reads hreads
  have hk₁ := sessionStep_agrees hk hstep
  obtain ⟨-, next, key₃, key₄, hp⟩ := sessionStep_heeded hk (hears.heeds hk) hstep
  have hreg := (changeState_turned (hp.turn.turned hk hp.registered) hp.hooks).registered
  have hstate : key₁.state = next := settle_state hp.settled
  have hturn := hp.turn
  cases hturn with
  | lost reads hand => exact absurd hand hany
  | listened reads takes fed waits => exact listened_session hreads rfl hany hreg hreplied fed waits hp
  | @answered rb g received p errored _ _ reads takes fed done answer =>
    obtain ⟨front, hfront, hfed⟩ := Session.feedAll_fed (s := key.session) hreads (Or.inl hany) fed
    rw [if_pos done] at hfed
    have hanswered : key.session.answer p = .ok key₂.session ∧ key₂.data.readBuffer = rb := by
      cases answer with
      | quit command sized taken =>
        have hquiet := hreplied.eq_of_quiet (by rw [hstate]; decide)
        rw [hquiet]
        exact quit_session hreads rfl hreg command (hbye hstate) hp
      | turnedAway state command =>
        exact turnedAway_session hk₁ state hreg command hreplied (state ▸ hp)
      | served serves sized pending =>
        exact served_session hk₁ hreads rfl hreg (hk.quiet hread) hreplied (hears.no_data hk fed hany done) serves pending hp
    refine ⟨front, ?_, hfed.trans hanswered.1⟩
    rw [hanswered.2]
    exact hfront
  | received state | stored state =>
    rw [state] at hreads
    cases hreads
  | unsent writes | sending writes | sent writes =>
    rw [hread] at writes
    cases writes

end Exchanges

end Smtpd
