import Smtpd.Connection
import Smtpd.DataConservation

namespace Smtpd

open Checked Incremental

/-- A connection with other bytes to be sent. -/
def Key.withOutput (key : Key) (wb : Buffer) (i : Interest) (sent : List (List UInt8)) : Key :=
  { key with
    interest := i
    data := { key.data with writeBuffer := wb }
    os := { key.os with trace := key.os.trace ++ sent.map .sent } }

/-- A connection that has read from its client. -/
def Key.withInput (key : Key) (rb : Buffer) (g : Globals) (received : List (List UInt8)) : Key :=
  { key with
    globals := g
    data := { key.data with readBuffer := rb }
    os := { key.os with trace := key.os.trace ++ received.map .received } }

theorem Key.withOutput_self (key : Key) :
    key.withOutput key.data.writeBuffer key.interest [] = key := by
  simp [Key.withOutput]

theorem Key.withOutput_withOutput (key : Key) (wb wb' : Buffer) (i i' : Interest)
    (sent sent' : List (List UInt8)) :
    (key.withOutput wb i sent).withOutput wb' i' sent' = key.withOutput wb' i' (sent ++ sent') := by
  simp [Key.withOutput]

theorem addTransferred_eq (key : Key) (n : Int) :
    addTransferred key n = key.withInput key.data.readBuffer (addTransferred key n).globals [] := by
  simp [Key.withInput, addTransferred]

theorem selectorSetInterestKey_registered {key : Key} (h : key.registered = true) (i : Interest) :
    selectorSetInterestKey key i = (true, { key with interest := i }) := by
  simp [selectorSetInterestKey, h]

theorem writeStatus_ok {env : Env} {key key' : Key} {current next r : SmtpState}
    (h : writeStatus env key current next = .ok (r, key')) :
    ∃ wb i sent, key' = key.withOutput wb i sent ∧ (r = .error ∨ r = next ∨ r = current) := by
  obtain ⟨⟨ptr, count⟩, -, h⟩ := bind_ok h
  cases hs : env.send with
  | none =>
    simp only [hs] at h
    cases h
    exact ⟨_, _, [], key.withOutput_self.symm, Or.inl rfl⟩
  | some taken =>
    simp only [hs] at h
    split at h
    · obtain ⟨wb, -, h⟩ := bind_ok h
      split at h
      · unfold selectorSetInterestKey at h
        split at h
        next hreg =>
          split at hreg
          · cases hreg
            cases h
            exact ⟨wb, .read, [_], rfl, Or.inr (Or.inl rfl)⟩
          · cases hreg
        next hreg =>
          split at hreg
          · cases hreg
          · cases hreg
            cases h
            exact ⟨wb, key.interest, [_], rfl, Or.inl rfl⟩
      · cases h
        exact ⟨wb, key.interest, [_], rfl, Or.inr (Or.inr rfl)⟩
    · cases h
      exact ⟨_, _, [], key.withOutput_self.symm, Or.inl rfl⟩

theorem putString_ok {key key' : Key} {text : List UInt8} {n : Nat}
    (h : putString key text n = .ok key') : ∃ wb, key' = key.withOutput wb key.interest [] := by
  obtain ⟨⟨ptr, count⟩, -, h⟩ := bind_ok h
  obtain ⟨wb₁, -, h⟩ := bind_ok h
  obtain ⟨wb, -, h⟩ := bind_ok h
  cases h
  exact ⟨wb, by simp [Key.withOutput]⟩

theorem copyToWriteBuffer_ok {key key' : Key} {message : List UInt8}
    (h : copyToWriteBuffer key message = .ok key') : ∃ wb, key' = key.withOutput wb key.interest [] := by
  obtain ⟨wb₁, -, h⟩ := bind_ok h
  obtain ⟨wb, -, h⟩ := bind_ok h
  cases h
  exact ⟨wb, by simp [Key.withOutput]⟩

/-- An answer is put into the buffer and logged. -/
theorem reply_ok {key key' : Key} {st : SmtpState} {text : List UInt8} {n : Nat}
    (h : reply key st text n = .ok key') :
    ∃ wb, key' = { key.withOutput wb key.interest [] with
      log := key.log ++ [.answered st key.data.requestParser.command key.data.requestParser.request text] } := by
  obtain ⟨key₁, hput, h⟩ := bind_ok h
  obtain ⟨wb, rfl⟩ := putString_ok hput
  cases h
  exact ⟨wb, rfl⟩

theorem quitReply_ok {env : Env} {key key' : Key} {st r : SmtpState}
    (h : quitReply env key st = .ok (r, key')) :
    r = .done ∧ ∃ wb i sent, key' = { key.withOutput wb i sent with
      log := key.log ++ [.answered st key.data.requestParser.command key.data.requestParser.request
        (ascii "221 Bye\r\n")] } := by
  obtain ⟨key₁, hreply, h⟩ := bind_ok h
  obtain ⟨wb₁, rfl⟩ := reply_ok hreply
  obtain ⟨⟨r₁, key₂⟩, hwrite, h⟩ := bind_ok h
  obtain ⟨wb, i, sent, rfl, -⟩ := writeStatus_ok hwrite
  cases h
  exact ⟨rfl, wb, i, sent, by simp [Key.withOutput]⟩

section Reading

variable {env : Env} {key key' : Key} {r : SmtpState}

theorem atHand_of_pending (hv : key.data.readBuffer.Valid) (h : key.data.readBuffer.pending ≠ []) :
    key.atHand env = key.data.readBuffer.pending :=
  if_pos (hv.canRead_iff.mpr h)

/-- A read event: what a call left is processed, or what is received, or the connection is lost. -/
theorem readStatus_eq (env : Env) (process : Env → Key → Result (SmtpState × Key)) (hs : key.data.readBuffer.Sized 2048) :
    (key.atHand env = [] ∧ ∃ g, readStatus env key process =
      .ok (.error, key.withInput key.data.readBuffer g [])) ∨
    (∃ rb g received, rb.Sized 2048 ∧ rb.pending = key.atHand env ∧ rb.pending ≠ [] ∧
      rb.pending = key.data.readBuffer.pending ++ received.flatten ∧
      readStatus env key process = process env (key.withInput rb g received)) := by
  unfold readStatus
  by_cases hc : bufferCanRead key.data.readBuffer = true
  · rw [if_pos hc]
    have hp := hs.valid.canRead_iff.mp hc
    exact Or.inr ⟨key.data.readBuffer, key.globals, [], hs, (atHand_of_pending hs.valid hp).symm, hp,
      by simp, by simp [Key.withInput]⟩
  · have he : key.data.readBuffer.pending = [] := by
      by_contra hp
      exact hc (hs.valid.canRead_iff.mpr hp)
    have hptr : bufferWritePtr key.data.readBuffer =
        .ok (key.data.readBuffer.write, key.data.readBuffer.room) := if_pos hs.valid.write_le
    have hhand : key.atHand env = (env.recv.getD []).take key.data.readBuffer.room := if_neg hc
    have hlost : ∀ n, (.ok (.error, addTransferred key n) : Result (SmtpState × Key)) =
        .ok (.error, key.withInput key.data.readBuffer (addTransferred key n).globals []) := by
      intro n
      rw [← addTransferred_eq]
    rw [if_neg hc, hptr]
    cases hr : env.recv with
    | none =>
      exact Or.inl ⟨by simp [hhand, hr], _, hlost (-1)⟩
    | some bytes =>
      have hgot : bytes.take key.data.readBuffer.room = key.atHand env := by
        rw [hhand, hr]
        rfl
      simp only [ok_bind, hgot]
      by_cases hl : (key.atHand env).length > 0
      · rw [if_pos hl]
        have hroom : (key.atHand env).length ≤ key.data.readBuffer.room := by
          rw [← hgot]
          exact List.length_take_le _ _
        have hfit : key.data.readBuffer.write + (key.atHand env).length ≤
            key.data.readBuffer.raw.length := by
          have h1 := hs.valid.write_le
          have h2 := hs.valid.limit_le
          unfold Buffer.room at hroom
          omega
        obtain ⟨rb₁, rb, hstore, hadv, hv, hp, hsame, -, -⟩ :=
          bufferWriteAdv_spec hs.valid (key.atHand env) hfit le_rfl hroom
        have hpend : rb.pending = key.atHand env := by simpa [he] using hp
        refine Or.inr ⟨rb, (addTransferred key (key.atHand env).length).globals, [key.atHand env],
          hs.of_same hv hsame, hpend, ?_, ?_, ?_⟩
        · rw [hpend]
          exact List.length_pos_iff.mp hl
        · simp [hpend, he]
        · rw [hstore, ok_bind, hadv, ok_bind]
          rfl
      · rw [if_neg hl]
        have hnil : key.atHand env = [] := List.length_eq_zero_iff.mp (by omega)
        exact Or.inl ⟨hnil, _, hlost _⟩

theorem readStatus_ok {process : Env → Key → Result (SmtpState × Key)}
    (hs : key.data.readBuffer.Sized 2048) (h : readStatus env key process = .ok (r, key')) :
    (key.atHand env = [] ∧ r = .error ∧ ∃ g, key' = key.withInput key.data.readBuffer g []) ∨
    (∃ rb g received, rb.Sized 2048 ∧ rb.pending = key.atHand env ∧ rb.pending ≠ [] ∧
      rb.pending = key.data.readBuffer.pending ++ received.flatten ∧
      process env (key.withInput rb g received) = .ok (r, key')) := by
  rcases readStatus_eq env process hs with ⟨hnil, g, he⟩ | ⟨rb, g, received, hrb, hhand, hne, hpend, he⟩
  · rw [he] at h
    cases h
    exact Or.inl ⟨hnil, rfl, g, rfl⟩
  · rw [he] at h
    exact Or.inr ⟨rb, g, received, hrb, hhand, hne, hpend, h⟩

/-- Bytes that there is room for are at hand as they are received. -/
theorem atHand_received {bytes : List UInt8} (hs : key.data.readBuffer.Sized 2048)
    (he : key.data.readBuffer.pending = []) (hr : env.recv = some bytes) (hlen : bytes.length ≤ 2048) :
    key.atHand env = bytes := by
  have hc : ¬ bufferCanRead key.data.readBuffer = true := fun hn => hs.valid.canRead_iff.mp hn he
  rw [Key.atHand, if_neg hc, hr, hs.room_of_empty he]
  exact List.take_of_length_le hlen

/-- A connection that has read on in a command. -/
def Key.withRequest (key : Key) (rb : Buffer) (p : RequestParser) : Key :=
  { key with data := { key.data with readBuffer := rb, requestParser := p } }

/-- Where a command is read, the parser fails, or the command is incomplete, or it is answered. -/
theorem requestProcess_eq (env : Env) (st : SmtpState) (answer : Env → Key → Result (SmtpState × Key))
    (hs : key.data.readBuffer.Sized 2048) (hreg : key.registered = true) :
    (∃ e, requestConsume key.data.readBuffer key.data.requestParser false = .error e ∧
      requestProcess env key st answer = .error e) ∨
    (∃ rb p errored, rb.Sized 2048 ∧
      requestParser.feedUntil (key.data.requestParser, false) key.data.readBuffer.pending =
        .ok ((p, errored), rb.pending) ∧
      (p.state ≠ .done ∧ requestProcess env key st answer = .ok (st, key.withRequest rb p) ∨
        p.state = .done ∧ requestProcess env key st answer =
          answer env { key.withRequest rb p with interest := .write })) := by
  unfold requestProcess
  cases hconsume : requestConsume key.data.readBuffer key.data.requestParser false with
  | error e => exact Or.inl ⟨e, rfl, rfl⟩
  | ok r =>
    obtain ⟨rb, p, errored⟩ := r
    obtain ⟨hfeed, hv, hsame⟩ := consume_inv hs.valid hconsume
    refine Or.inr ⟨rb, p, errored, hs.of_same hv hsame, hfeed, ?_⟩
    by_cases hd : p.state = .done
    · have hset := @selectorSetInterestKey_registered
        { key with data := { key.data with readBuffer := rb, requestParser := p } } hreg .write
      simp only [ok_bind, requestIsDone, hd, decide_true, if_true, hset]
      exact Or.inr ⟨trivial, rfl⟩
    · simp only [ok_bind, requestIsDone, hd, decide_false, Bool.false_eq_true, if_false]
      exact Or.inl ⟨hd, rfl⟩

/-- A read event of a state that reads a command: the connection is lost, or the parser fails, or
the command is incomplete, or it is answered. -/
theorem requestRead_eq {st : SmtpState} (env : Env) (answer : Env → Key → Result (SmtpState × Key))
    (hs : key.data.readBuffer.Sized 2048) (hreg : key.registered = true) (hint : key.interest = .read)
    (hreads : st.readsRequest = true) :
    (key.asked st (.ready .read env) = none ∧ ∃ g,
      readStatus env key (fun env key => requestProcess env key st answer) =
        .ok (.error, key.withInput key.data.readBuffer g [])) ∨
    (∃ e b, requestConsume b key.data.requestParser false = .error e ∧
      readStatus env key (fun env key => requestProcess env key st answer) = .error e) ∨
    (∃ rb g received rb' p, rb'.Sized 2048 ∧
      (key.asked st (.ready .read env) = none ∧
          readStatus env key (fun env key => requestProcess env key st answer) =
            .ok (st, (key.withInput rb g received).withRequest rb' p) ∨
        key.asked st (.ready .read env) = some (p.command, p.request) ∧
          readStatus env key (fun env key => requestProcess env key st answer) =
            answer env { (key.withInput rb g received).withRequest rb' p with interest := .write })) := by
  rcases readStatus_eq env (fun env key => requestProcess env key st answer) hs with
    ⟨hnil, g, he⟩ | ⟨rb, g, received, hrb, hhand, hne, -, he⟩
  · exact Or.inl ⟨if_neg fun hn => hn.2.2.2 hnil, g, he⟩
  · have hrb' : (key.withInput rb g received).data.readBuffer.Sized 2048 := hrb
    rcases requestProcess_eq env st answer hrb' hreg with
      ⟨e, hconsume, hp⟩ | ⟨rb', p, errored, hsized, hfeed, hcase⟩
    · exact Or.inr (Or.inl ⟨e, rb, hconsume, he.trans hp⟩)
    · have hfeed' : requestParser.feedUntil (key.data.requestParser, false) (key.atHand env) =
          .ok ((p, errored), rb'.pending) := by
        rw [← hhand]
        exact hfeed
      have hasked : key.asked st (.ready .read env) =
          if p.state = .done then some (p.command, p.request) else none := by
        rw [Key.asked, if_pos ⟨hreg, hint, hreads, hhand ▸ hne⟩, hfeed']
      refine Or.inr (Or.inr ⟨rb, g, received, rb', p, hsized, ?_⟩)
      rcases hcase with ⟨hd, hp⟩ | ⟨hd, hp⟩
      · exact Or.inl ⟨hasked.trans (if_neg hd), he.trans hp⟩
      · exact Or.inr ⟨hasked.trans (if_pos hd), he.trans hp⟩

theorem requestRead_ok {st : SmtpState} {answer : Env → Key → Result (SmtpState × Key)}
    (hs : key.data.readBuffer.Sized 2048) (hreg : key.registered = true) (hint : key.interest = .read)
    (hreads : st.readsRequest = true)
    (h : readStatus env key (fun env key => requestProcess env key st answer) = .ok (r, key')) :
    (key.asked st (.ready .read env) = none ∧ r = .error ∧
      ∃ g, key' = key.withInput key.data.readBuffer g []) ∨
    (∃ rb g received rb' p, rb'.Sized 2048 ∧
      (key.asked st (.ready .read env) = none ∧ r = st ∧
          key' = (key.withInput rb g received).withRequest rb' p ∨
        key.asked st (.ready .read env) = some (p.command, p.request) ∧
          answer env { (key.withInput rb g received).withRequest rb' p with interest := .write } =
            .ok (r, key'))) := by
  rcases requestRead_eq env answer hs hreg hint hreads with
    ⟨hnone, g, he⟩ | ⟨e, b, -, he⟩ | ⟨rb, g, received, rb', p, hrb', hcase⟩
  · rw [he] at h
    cases h
    exact Or.inl ⟨hnone, rfl, g, rfl⟩
  · rw [he] at h
    cases h
  · refine Or.inr ⟨rb, g, received, rb', p, hrb', ?_⟩
    rcases hcase with ⟨hnone, he⟩ | ⟨hsome, he⟩
    · rw [he] at h
      cases h
      exact Or.inl ⟨hnone, rfl, rfl⟩
    · exact Or.inr ⟨hsome, he ▸ h⟩

/-- Where a message is read, what the parser writes is in the data buffer as far as it fits, and
what is there goes to the recipients. -/
theorem mailInfoReadProcess_ok (hs : key.data.readBuffer.Sized 2048)
    (hb : key.data.dataParser.dataBuffer.Sized 2048) (hreg : key.registered = true)
    (h : mailInfoReadProcess env key = .ok (r, key')) :
    ∃ front rb dp os, key.data.readBuffer.pending = front ++ rb.pending ∧ rb.Sized 2048 ∧
      dp.dataBuffer.Sized 2048 ∧ dp.dataBuffer.read = 0 ∧
      dp.state = dataRun key.data.dataParser.state front ∧
      dp.dataBuffer.pending = (dataWritten key.data.dataParser.state front).take 2048 ∧
      (key.data.dataParser.state ≠ .done →
        ∀ m < front.length, dataRun key.data.dataParser.state (front.take m) ≠ .done) ∧
      writeToFiles key.os dp key.data.rcptList = .ok os ∧
      (dp.state ≠ .done ∧ rb.pending = [] ∧ r = .mailInfoRead ∧
          key' = { key with data := { key.data with readBuffer := rb, dataParser := dp }, os } ∨
        dp.state = .done ∧ r = .mailInfoWrite ∧ ∃ wb,
          putString { key with
            interest := .write
            data := { key.data with readBuffer := rb, dataParser := dp }
            os } (ascii "250 Ok: queued\r\n") (ascii "250 Ok: queued\r\n").length = .ok { key with
              interest := .write
              data := { key.data with readBuffer := rb, dataParser := dp, writeBuffer := wb }
              os } ∧
          key' = { key with
            interest := .write
            data := { key.data with readBuffer := rb, dataParser := dp, writeBuffer := wb }
            os
            log := key.log ++ [.stored (ascii "250 Ok: queued\r\n")] }) := by
  obtain ⟨⟨rb, dp⟩, hconsume, h⟩ := bind_ok h
  obtain ⟨os, hwrite, h⟩ := bind_ok h
  obtain ⟨hreset, hempty⟩ := hb.reset
  obtain ⟨front, hc⟩ := dataConsume_inv hs.valid hreset.valid hconsume
  have hstate : dp.state = dataRun key.data.dataParser.state front := hc.state
  have hread : dp.dataBuffer.read = 0 := hc.read.trans hb.data
  have hout := hc.output
  rw [hempty, hreset.room_of_empty hempty, List.nil_append] at hout
  refine ⟨front, rb, dp, os, hc.input, hs.of_same hc.source hc.same, hreset.of_same hc.sink hc.sameArray,
    hread, hstate, hout, hc.first, hwrite, ?_⟩
  by_cases hd : dp.state = .done
  · have hset := @selectorSetInterestKey_registered
      { key with data := { key.data with readBuffer := rb, dataParser := dp }, os } hreg .write
    simp only [dataIsDone, hd, decide_true, if_true, hset] at h
    obtain ⟨key₁, hput, h⟩ := bind_ok h
    obtain ⟨wb, hkey⟩ := putString_ok hput
    cases h
    simp only [Key.withOutput, List.map_nil, List.append_nil] at hkey
    subst hkey
    exact Or.inr ⟨hd, rfl, wb, hput, rfl⟩
  · simp only [dataIsDone, hd, decide_false, Bool.false_eq_true, if_false] at h
    cases h
    exact Or.inl ⟨hd, hc.rest hd, rfl, rfl⟩

/-- Where a message is read and does not end, it is read on. -/
theorem mailInfoReadProcess_of_open {fds : List Nat} (env : Env) (hs : key.data.readBuffer.Sized 2048)
    (hb : key.data.dataParser.dataBuffer.Sized 2048)
    (hmap : key.data.rcptList.map RcptNode.fileFd = fds.map some)
    (hopen : dataRun key.data.dataParser.state key.data.readBuffer.pending ≠ .done) :
    ∃ rb dp os, mailInfoReadProcess env key = .ok (.mailInfoRead,
      { key with data := { key.data with readBuffer := rb, dataParser := dp }, os }) := by
  obtain ⟨hreset, -⟩ := hb.reset
  let reset := { key.data.dataParser with dataBuffer := bufferReset key.data.dataParser.dataBuffer }
  obtain ⟨front, rb, dp, hconsume, hc⟩ := @dataConsume_total key.data.readBuffer reset hs.valid hreset.valid
  obtain ⟨os, hwrite⟩ := writeToFiles_of_fds (p := dp) hmap key.os
  have hd : dataIsDone dp.state = false := by
    apply dataIsDone_eq_false.mpr
    rw [hc.state_all]
    exact hopen
  refine ⟨rb, dp, os, ?_⟩
  show (dataConsume key.data.readBuffer reset >>= _) = _
  rw [hconsume]
  simp only [ok_bind, hwrite, hd, Bool.false_eq_true, if_false]

end Reading

end Smtpd
