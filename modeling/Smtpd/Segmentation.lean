import Smtpd.CommandProgress

namespace Smtpd

open Checked CString Incremental Runs

namespace Session

/-- A session that goes on with these bytes, in which all arguments fit. -/
structure Ready (s : Session) (bytes : List UInt8) : Prop where
  parser : s.parser.Fits
  mailfrom : s.mailfrom.length = 255
  short : argumentsFit s.parser bytes = true

section Feeding

variable {s s' : Session} {p : RequestParser} {c : UInt8} {cs bytes rest : List UInt8}

theorem serve_mailfrom {text mailfrom : List UInt8} {write : SmtpState} {rcptList : List RcptNode} (hp : p.Fits)
    (hm : s.mailfrom.length = 255) (h : s.serve p = .ok (text, write, mailfrom, rcptList)) : mailfrom.length = 255 := by
  unfold serve at h
  split at h
  · cases h
    exact hm
  · split_ifs at h
    · cases h
      exact hm
    · obtain ⟨address, haddress, h⟩ := bind_ok h
      cases h
      obtain ⟨address', haddress', hlen⟩ := hp.cstring
      cases haddress'.symm.trans (demand_ok haddress)
      have hfit : 0 + (address ++ [0]).length ≤ s.mailfrom.length := by
        rw [List.length_append, List.length_singleton]
        omega
      exact (length_overwrite hfit).trans hm
    · obtain ⟨address, -, h⟩ := bind_ok h
      obtain ⟨copy, -, h⟩ := bind_ok h
      cases h
      exact hm

/-- With an answer the next command begins, unless the session is over. -/
theorem answer_ready (hp : p.Fits) (hm : s.mailfrom.length = 255) (h : s.answer p = .ok s')
    (hreads : s'.state.readsRequest = true) : s'.parser = requestParserInit ∧ s'.mailfrom.length = 255 := by
  unfold answer at h
  split_ifs at h
  · cases h
    cases hreads
  · cases h
    exact ⟨rfl, hm⟩
  · obtain ⟨⟨text, write, mailfrom, rcptList⟩, hserve, h⟩ := bind_ok h
    obtain ⟨next, -, h⟩ := bind_ok h
    cases h
    exact ⟨rfl, serve_mailfrom hp hm hserve⟩

theorem feed_ready (hs : s.Ready (c :: cs)) (h : s.feed c = .ok s') (hreads : s'.state.readsRequest = true) :
    s'.Ready cs := by
  have hshort := hs.short
  unfold feed at h
  split_ifs at h with hr
  · obtain ⟨p, hp, h⟩ := bind_ok h
    rw [argumentsFit_cons hp] at hshort
    obtain ⟨hi, hrest⟩ := Bool.and_eq_true_iff.mp hshort
    have hfits := feed_fits hs.parser hp (of_decide_eq_true hi)
    split_ifs at h with hd
    · obtain ⟨hparser, hm⟩ := answer_ready hfits hs.mailfrom h hreads
      rw [if_pos hd] at hrest
      refine ⟨?_, hm, ?_⟩
      · rw [hparser]
        exact requestParserInit_fits
      · rw [hparser]
        exact hrest
    · cases h
      rw [if_neg hd] at hrest
      exact ⟨hfits, hs.mailfrom, hrest⟩
  · cases h
    exact absurd hreads hr

theorem feedAll_ready (hs : s.Ready (bytes ++ rest)) (h : s.feedAll bytes = .ok s')
    (hreads : s'.state.readsRequest = true) : s'.Ready rest := by
  induction bytes generalizing s with
  | nil =>
    cases h
    exact hs
  | cons c cs ih =>
    obtain ⟨s₁, hfeed, h⟩ := bind_ok h
    cases hr : s₁.state.readsRequest with
    | true => exact ih (feed_ready hs hfeed hr) h
    | false =>
      have hover : s' = s₁ := Except.ok.inj (h.symm.trans (feedAll_over hr cs))
      rw [hover, hr] at hreads
      cases hreads

end Feeding

end Session

/-- What a read event gets: what is left of the last chunk, or the next one. -/
def Key.Gets (key : Key) (env : Env) (chunks rest : List (List UInt8)) : Prop :=
  key.data.readBuffer.pending ≠ [] ∧ rest = chunks ∨
    key.data.readBuffer.pending = [] ∧ ∃ bytes, chunks = bytes :: rest ∧ bytes ≠ [] ∧ bytes.length ≤ 2048 ∧
      env.recv = some bytes

/-- A client is heard, chunk by chunk: read events happen until nothing of a chunk is left, and what is
said to it is sent before the next of them. -/
inductive Fed : Key → List (List UInt8) → Result Key → Prop
  | done {key} (empty : key.data.readBuffer.pending = []) : Fed key [] (.ok key)
  /-- after `QUIT` nothing is heard -/
  | ended {key chunks} (state : key.state = .done) : Fed key chunks (.ok key)
  /-- something happens elsewhere, or to a connection that does not wait for it -/
  | idle {key key₁ chunks r ev} (idle : ∀ op env, ev = .ready op env → ¬ key.Heeds op)
      (step : sessionStep key ev = .ok key₁) (next : Fed key₁ chunks r) : Fed key chunks r
  | read {key key₁ key₂ env chunks rest r} (gets : key.Gets env chunks rest) (hears : key.Hears env)
      (step : sessionStep key (.ready .read env) = .ok key₁)
      (bye : key₁.state = .done → sentBytes key₁.os.trace = sentBytes key.os.trace ++ byeText)
      (replied : key₁.Replied key₂) (next : Fed key₂ rest r) : Fed key chunks r
  | fault {key env chunks rest e} (gets : key.Gets env chunks rest) (hears : key.Hears env)
      (step : sessionStep key (.ready .read env) = .error e) : Fed key chunks (.error e)

section Chunks

variable {env : Env} {key key₁ key₂ key' : Key} {st : SmtpState} {ev : Event} {chunks rest : List (List UInt8)}
  {r : Result Key}

theorem Key.Gets.atHand (hk : key.Agrees st) (h : key.Gets env chunks rest) :
    key.atHand env ≠ [] ∧ key.atHand env ++ rest.flatten = key.data.readBuffer.pending ++ chunks.flatten := by
  rcases h with ⟨hpend, rfl⟩ | ⟨hpend, bytes, rfl, hne, hlen, hrecv⟩
  · have hhand : key.atHand env = key.data.readBuffer.pending := atHand_of_pending hk.sound.input.valid hpend
    rw [hhand]
    exact ⟨hpend, rfl⟩
  · have hhand := atHand_received hk.sound.input hpend hrecv hlen
    rw [hhand, hpend, List.flatten_cons, List.nil_append]
    exact ⟨hne, rfl⟩

/-- What happens elsewhere is not part of the session. -/
theorem idle_session (hk : key.Agrees key.state) (hidle : ∀ op env, ev = .ready op env → ¬ key.Heeds op)
    (h : sessionStep key ev = .ok key') :
    key'.session = key.session ∧ key'.data.readBuffer = key.data.readBuffer := by
  rcases sessionStep_turn hk.sound hk.output h with
    ⟨op, env, -, -, rfl⟩ | ⟨globals, tree, fds, -, rfl⟩ | ⟨op, env, next, key₁, key₂, rfl, hheeds, -⟩
  · exact ⟨rfl, rfl⟩
  · exact ⟨rfl, rfl⟩
  · exact absurd hheeds (hidle op env rfl)

theorem Key.Replied.agrees (hk : key.Agrees key.state) (h : key.Replied key') : key'.Agrees key'.state := by
  cases h with
  | quiet => exact hk
  | sent writes takes stays runs => exact run_agrees hk runs

/-- A connection to which a client is heard does what its session does, byte by byte, and where the
arguments fit it does not fail. -/
theorem Fed.session (h : Fed key chunks r) (hk : key.Agrees key.state)
    (hready : key.state.readsRequest = true → key.session.Ready (key.data.readBuffer.pending ++ chunks.flatten)) :
    ∃ key', r = .ok key' ∧
      key.session.feedAll (key.data.readBuffer.pending ++ chunks.flatten) = .ok key'.session := by
  induction h with
  | done empty =>
    rw [empty]
    exact ⟨_, rfl, rfl⟩
  | ended state =>
    refine ⟨_, rfl, Session.feedAll_over ?_ _⟩
    show SmtpState.readsRequest (Key.state _) = false
    rw [state]
    rfl
  | idle hidle step next ih =>
    obtain ⟨hsession, hrb⟩ := idle_session hk hidle step
    have hstate : Key.state _ = Key.state _ := congrArg Session.state hsession
    rw [← hsession, ← hrb]
    refine ih (sessionStep_agrees hk step) fun hreads => ?_
    rw [hstate] at hreads
    rw [hsession, hrb]
    exact hready hreads
  | read gets hears step bye replied next ih =>
    obtain ⟨hany, hstream⟩ := gets.atHand hk
    obtain ⟨front, hfront, hfed⟩ := exchange_session hk hears hany step bye replied
    have hk₂ := replied.agrees (sessionStep_agrees hk step)
    rw [← hstream, hfront, List.append_assoc, Session.feedAll_append, hfed, ok_bind]
    refine ih hk₂ fun hreads => ?_
    have hready := hready hears.reads
    rw [← hstream, hfront, List.append_assoc] at hready
    exact Session.feedAll_ready hready hfed hreads
  | fault gets hears step =>
    obtain ⟨hany, hstream⟩ := gets.atHand hk
    obtain ⟨hparser, hmail, hshort⟩ := hready hears.reads
    rw [← hstream] at hshort
    obtain ⟨key', hok⟩ := hears.step hk hany hparser hmail hshort
    cases step.symm.trans hok

/-- A turn writes a sender over the last one, in the array that is there. -/
theorem Key.Turn.mailfrom_length {next : SmtpState} (h : key.Turn env st next key₁) :
    key₁.data.mailfrom.length = key.data.mailfrom.length := by
  cases h with
  | answered reads takes fed done answer =>
    cases answer with
    | served serves =>
      cases serves with
      | sender mail copied =>
        obtain ⟨address, -, copied⟩ := bind_ok copied
        split_ifs at copied with hlen
        cases copied
        refine length_overwrite ?_
        rw [List.length_append, List.length_singleton]
        omega
      | _ => rfl
    | _ => rfl
  | _ => rfl

theorem sessionStep_mailfrom (hk : key.Agrees st) (h : sessionStep key ev = .ok key') :
    key'.data.mailfrom.length = key.data.mailfrom.length := by
  rcases sessionStep_turn hk.sound hk.output h with
    ⟨op, env, -, -, rfl⟩ | ⟨globals, tree, fds, -, rfl⟩ | ⟨op, env, next, key₁, key₂, -, -, hp⟩
  · rfl
  · rfl
  · obtain ⟨hdata, -, -⟩ := settle_ok hp.settled
    have hmail : key'.data.mailfrom = key₁.data.mailfrom := by
      rw [hdata]
      exact (changeState_effect hp.hooks).mailfrom
    rw [hmail, hp.turn.mailfrom_length]

theorem accepted_mailfrom {es : List Event} (ha : Accepted key) (h : run sessionStep key es = .ok key') :
    key'.data.mailfrom.length = 255 := by
  refine accepted_invariant (I := fun _ key => key.data.mailfrom.length = 255) ha ?_ ?_ h
  · intro client st g os hw
    rw [hw.fresh.mailfrom, List.length_replicate]
  · intro xs ev key₁ key₂ _ hk hm hstep
    exact (sessionStep_mailfrom hk hstep).trans hm

end Chunks

/-- However a stream of commands whose arguments fit is cut into chunks, it is served without a fault,
and the answers to it are the same, and so is what it leaves behind. -/
theorem dialogue_segmentation {key₀ key : Key} {es : List Event} {chunks₁ chunks₂ : List (List UInt8)}
    {r₁ r₂ : Result Key} (ha : Accepted key₀) (h₀ : run sessionStep key₀ es = .ok key)
    (hstart : key.data.requestParser = requestParserInit)
    (hfit : argumentsFit requestParserInit (key.data.readBuffer.pending ++ chunks₁.flatten) = true)
    (hsame : chunks₁.flatten = chunks₂.flatten) (h₁ : Fed key chunks₁ r₁) (h₂ : Fed key chunks₂ r₂) :
    ∃ key₁ key₂, r₁ = .ok key₁ ∧ r₂ = .ok key₂ ∧ key₁.state = key₂.state ∧
      key₁.data.mailfrom = key₂.data.mailfrom ∧ key₁.data.rcptList = key₂.data.rcptList ∧
      key₁.data.requestParser = key₂.data.requestParser ∧ key₁.log = key₂.log ∧
      sentBytes key₁.os.trace = sentBytes key₂.os.trace := by
  have hk := accepted_agrees ha h₀
  have hmail := accepted_mailfrom ha h₀
  have hready : key.session.Ready (key.data.readBuffer.pending ++ chunks₁.flatten) := by
    refine ⟨?_, hmail, ?_⟩
    · show key.data.requestParser.Fits
      rw [hstart]
      exact requestParserInit_fits
    · show argumentsFit key.data.requestParser _ = true
      rw [hstart]
      exact hfit
  obtain ⟨key₁, hr₁, hsession₁⟩ := h₁.session hk fun _ => hready
  obtain ⟨key₂, hr₂, hsession₂⟩ := h₂.session hk fun _ => hsame ▸ hready
  rw [hsame] at hsession₁
  have hsession : key₁.session = key₂.session := Except.ok.inj (hsession₁.symm.trans hsession₂)
  exact ⟨key₁, key₂, hr₁, hr₂, congrArg Session.state hsession, congrArg Session.mailfrom hsession,
    congrArg Session.rcptList hsession, congrArg Session.parser hsession, congrArg Session.log hsession,
    congrArg Session.output hsession⟩

section Script

/-- An answer that the socket takes at once. -/
theorem Key.Replied.once {key key' : Key} (hw : key.state.interest = .write) (hg : key.state.greeting = none)
    (h : sessionStep key (.ready .write (readyEnv [])) = .ok key') (left : key'.state ≠ key.state) :
    key.Replied key' := by
  refine @Key.Replied.sent key [.ready .write (readyEnv [])] key' hw ?_ ?_ ?_ left ?_
  · intro ev hev
    rw [List.mem_singleton.mp hev]
    exact (by decide : 0 < 2048)
  · intro xs ev ys k heq hk
    cases xs with
    | nil =>
      cases hk
      rfl
    | cons x xs => simp at heq
  · rw [run, List.foldlM_cons, h]
    rfl
  · intro text htext
    rw [hg] at htext
    cases htext

/-- A chunk of a greeting is read, and nothing of it is left. -/
theorem Fed.greeting {key key₁ key₂ : Key} {bytes : List UInt8} {rest : List (List UInt8)} {r : Result Key}
    (hst : key.state = .ehloRead) (hpend : key.data.readBuffer.pending = []) (hbytes : bytes ≠ [])
    (hlen : bytes.length ≤ 2048) (step : sessionStep key (.ready .read (readyEnv bytes)) = .ok key₁)
    (hnot : key₁.state ≠ .done) (replied : key₁.Replied key₂) (next : Fed key₂ rest r) : Fed key (bytes :: rest) r := by
  have hears : key.Hears (readyEnv bytes) := by
    refine ⟨by rw [hst]; rfl, rfl, fun hdata => ?_⟩
    rw [hst] at hdata
    cases hdata
  exact .read (Or.inr ⟨hpend, bytes, rfl, hbytes, hlen, rfl⟩) hears step (fun hn => absurd hn hnot) replied next

theorem dialogue_segmentation_ehlo :
    ∃ key r₁ r₂, run sessionStep firstKey (script []) = .ok key ∧
      Fed key [ascii "EHLO there\r\n"] r₁ ∧ Fed key [ascii "EHL", ascii "O there\r\n"] r₂ ∧
      ∃ key₁ key₂, r₁ = .ok key₁ ∧ r₂ = .ok key₂ ∧ key₁.state = key₂.state ∧
        sentBytes key₁.os.trace = sentBytes key₂.os.trace := by
  let line := ascii "EHLO there\r\n"
  let answered := fun (key : Key) (input : List UInt8) =>
    (sessionStep key (.ready .read (readyEnv input))).toOption.any fun key₁ => decide (key₁.state = .ehloWrite ∧
      ((sessionStep key₁ (.ready .write (readyEnv []))).toOption.any fun key₂ =>
        decide (key₂.state = .mailFromRead ∧ key₂.data.readBuffer.pending = [])) = true)
  have hany : ((run sessionStep firstKey (script [])).toOption.any fun key => decide
      ((key.state = .ehloRead ∧ key.data.readBuffer.pending = [] ∧ key.data.requestParser = requestParserInit) ∧
        answered key line = true ∧
        ((sessionStep key (.ready .read (readyEnv (line.take 3)))).toOption.any fun key₁ => decide
          ((key₁.state = .ehloRead ∧ key₁.data.readBuffer.pending = []) ∧
            answered key₁ (line.drop 3) = true)) = true)) = true := by
    decide +kernel
  have hanswered : ∀ {key : Key} {input : List UInt8}, key.state = .ehloRead → key.data.readBuffer.pending = [] →
      input ≠ [] → input.length ≤ 2048 → answered key input = true → ∃ key', Fed key [input] (.ok key') := by
    intro key input hst hpend hne hlen h
    obtain ⟨key₁, hread, hst₁, h⟩ := ok_of_any h
    obtain ⟨key₂, hwrite, hst₂, hpend₂⟩ := ok_of_any h
    have hreplied : key₁.Replied key₂ :=
      .once (by rw [hst₁]; rfl) (by rw [hst₁]; rfl) hwrite (by rw [hst₁, hst₂]; decide)
    exact ⟨key₂, .greeting hst hpend hne hlen hread (by rw [hst₁]; decide) hreplied (.done hpend₂)⟩
  obtain ⟨key, h₀, ⟨hst, hpend, hparser⟩, hwhole, hparts⟩ := ok_of_any hany
  obtain ⟨key₁, hpart, ⟨hst₁, hpend₁⟩, hrest⟩ := ok_of_any hparts
  obtain ⟨whole, h₁⟩ := hanswered hst hpend (by decide) (by decide) hwhole
  obtain ⟨parts, h₂⟩ := hanswered hst₁ hpend₁ (by decide) (by decide) hrest
  have h₂' : Fed key [line.take 3, line.drop 3] (.ok parts) :=
    .greeting hst hpend (by decide) (by decide) hpart (by rw [hst₁]; decide) (.quiet (by rw [hst₁]; decide)) h₂
  refine ⟨key, .ok whole, .ok parts, h₀, h₁, h₂', ?_⟩
  have hfit : argumentsFit requestParserInit (key.data.readBuffer.pending ++ [line].flatten) = true := by
    rw [hpend]
    decide +kernel
  obtain ⟨key₁, key₂, hr₁, hr₂, hstate, -, -, -, -, hsent⟩ :=
    dialogue_segmentation accepted_first h₀ hparser hfit (by decide) h₁ h₂'
  exact ⟨key₁, key₂, hr₁, hr₂, hstate, hsent⟩

end Script

end Smtpd
