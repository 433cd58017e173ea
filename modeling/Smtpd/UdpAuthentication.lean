import Smtpd.UdpServer
import Smtpd.Lib.Runs
import Mathlib.Data.List.TakeWhile

namespace Smtpd

open Checked CString Runs

/-- The text of a datagram, up to its first LF or NUL. -/
def datagramText (d : List UInt8) : List UInt8 := d.takeWhile (fun c => c ≠ LF ∧ c ≠ 0)

def UserText (d : List UInt8) : Prop := (datagramText d).map tolower = ascii "user"

/-- A datagram that breaks off within the word. -/
def ShortUser (d : List UInt8) : Prop := d.length < 4 ∧ d.map tolower <+: ascii "user"

instance (d : List UInt8) : Decidable (UserText d) := inferInstanceAs (Decidable (_ = _))

instance (d : List UInt8) : Decidable (ShortUser d) := inferInstanceAs (Decidable (_ ∧ _))

theorem datagramText_eq (d : List UInt8) :
    datagramText d = (d.takeWhile (· ≠ 0)).takeWhile (· ≠ LF) := by
  rw [datagramText, List.takeWhile_takeWhile]
  congr 1
  funext c
  simp

theorem userText_take {d : List UInt8} {n : Nat} (hn : 4 < n) : UserText (d.take n) ↔ UserText d := by
  have htake : datagramText (d.take n) = (datagramText d).take n := List.take_takeWhile.symm
  have hfour : ∀ t : List UInt8, t.map tolower = ascii "user" → t.length = 4 := by
    intro t ht
    have hl := congrArg List.length ht
    simpa [ascii] using hl
  unfold UserText
  rw [htake]
  constructor
  · intro h
    have hl := hfour _ h
    rw [List.length_take] at hl
    rwa [List.take_of_length_le (by omega)] at h
  · intro h
    rwa [List.take_of_length_le (by rw [hfour _ h]; omega)]

theorem shortUser_take {d : List UInt8} {n : Nat} (hn : 4 < n) :
    ShortUser (d.take n) ↔ ShortUser d := by
  unfold ShortUser
  by_cases hd : d.length ≤ n
  · rw [List.take_of_length_le hd]
  · rw [List.length_take]
    constructor <;> rintro ⟨hl, -⟩ <;> omega

/-- The comparison over the received length takes the word, and also what breaks off in it. -/
theorem strncasecmp_received (r : List UInt8) : ∃ n same,
    strcspn LF (r ++ [0]) = some n ∧
      strncasecmpEq r.length ((r ++ [0]).set n 0) (ascii "user") = some same ∧
      (same = true ↔ UserText r ∨ ShortUser r) := by
  have ht := cstring_terminated r
  obtain ⟨t, htext⟩ : ∃ t, t = r.takeWhile (· ≠ 0) := ⟨_, rfl⟩
  rw [← htext] at ht
  have hcut : cstring ((r ++ [0]).set (t.takeWhile (· ≠ LF)).length 0) = some (datagramText r) := by
    rw [cstring_set_zero _ ht, datagramText_eq, ← htext]
    exact congrArg some (List.prefix_iff_eq_take.mp (List.takeWhile_prefix _)).symm
  have hword : (0 : UInt8) ∉ ascii "user" := by decide
  obtain ⟨same, hsame, hiff⟩ := strncasecmpEq_cstring (n := r.length) hword hcut
  refine ⟨_, same, strcspn_cstring ht, hsame, hiff.trans ?_⟩
  have hlower : (ascii "user").map tolower = ascii "user" := by decide
  have hprefix : datagramText r <+: r := List.takeWhile_prefix _
  constructor
  · rintro (hu | ⟨hle, hfour, heq⟩)
    · exact Or.inl (hu.trans hlower)
    · have hwhole : datagramText r = r := hprefix.eq_of_length_le hle
      have hlen : r.length ≤ 4 := hfour
      rw [hwhole, List.take_length, List.map_take, hlower] at heq
      rcases Nat.lt_or_eq_of_le hlen with hlt | h4
      · exact Or.inr ⟨hlt, heq ▸ List.take_prefix _ _⟩
      · left
        rw [h4] at heq
        rw [UserText, hwhole, heq]
        rfl
  · rintro (hu | ⟨hlt, hpre⟩)
    · exact Or.inl (hu.trans hlower.symm)
    · right
      -- no byte of the word is LF or NUL, so the text is the whole datagram
      have hwhole : datagramText r = r := by
        rw [datagramText, List.takeWhile_eq_self_iff]
        intro c hc
        have hm : tolower c ∈ ascii "user" := hpre.subset (List.mem_map_of_mem hc)
        have hne : c ≠ LF ∧ c ≠ 0 := by
          constructor <;> rintro rfl <;> revert hm <;> decide
        simpa using hne
      refine ⟨by rw [hwhole], by show r.length ≤ 4; omega, ?_⟩
      rw [hwhole, List.take_length, List.map_take, hlower]
      have := List.prefix_iff_eq_take.mp hpre
      rwa [List.length_map] at this

theorem handleAuthentication_spec {st st' : ClientState} {r : List UInt8} {sent : List (List UInt8)}
    (hst : st = .waitUsername ∨ st = .waitPassword)
    (h : handleAuthentication st (r ++ [0]) r.length = .ok (st', sent)) :
    (UserText r ∨ ShortUser r) ∧ st' = (if st = .waitUsername then .waitPassword else .authSuccess) ∨
      ¬ (UserText r ∨ ShortUser r) ∧ st' = .waitUsername := by
  obtain ⟨n, same, hn, hsame, hiff⟩ := strncasecmp_received r
  unfold handleAuthentication at h
  rw [hn] at h
  rcases hst with rfl | rfl <;>
    simp only [demand_some, ok_bind, hsame] at h <;>
    cases same <;> cases h <;> simp at hiff <;> simp [hiff]

/-- The state of an address; one that is not in the list counts as `STATE_INIT`, in which its
entry will be made. -/
def UdpServer.stateOf (s : UdpServer) (clientAddr : List UInt8) : ClientState :=
  match findClient s.clients clientAddr with
  | some c => c.state
  | none => .init

def ClientState.next (st : ClientState) (d : List UInt8) : ClientState :=
  match st with
  | .init => .waitUsername
  | .waitUsername => if UserText d ∨ ShortUser d then .waitPassword else .waitUsername
  | .waitPassword => if UserText d ∨ ShortUser d then .authSuccess else .waitUsername
  | .authSuccess => .authSuccess
  | .authFailed => .authFailed

theorem findClient_setClientState {cs : List Client} {a : List UInt8} {c : Client} {st : ClientState}
    (h : findClient cs a = some c) :
    findClient (setClientState a st cs) a = some { c with state := st } := by
  induction cs with
  | nil => cases h
  | cons x cs ih =>
    by_cases hx : x.clientAddr = a
    · have hc : x = c := by simpa [findClient, hx] using h
      simp [setClientState, findClient, hx, ← hc]
    · simp only [findClient, List.find?_cons, hx, decide_false] at h
      simpa [setClientState, findClient, hx] using ih h

theorem findClient_setClientState_ne {cs : List Client} {a b : List UInt8} {st : ClientState}
    (h : b ≠ a) : findClient (setClientState a st cs) b = findClient cs b := by
  induction cs with
  | nil => rfl
  | cons x cs ih =>
    by_cases hx : x.clientAddr = a
    · simp [setClientState, findClient, hx, Ne.symm h]
    · by_cases hb : x.clientAddr = b
      · simp [setClientState, findClient, hb, h]
      · simpa [setClientState, findClient, hx, hb] using ih

def udpStep (s : UdpServer) (e : UdpEvent) : Result UdpServer := do
  let (s, _) ← udpReadHandler s e
  .ok s

/-- What is sent has no part in what becomes of the clients. -/
theorem udpServe_step {s s' : UdpServer} {e : UdpEvent} (h : udpServe s e = .ok s') : udpStep s e = .ok s' := by
  obtain ⟨r, hhandled, h⟩ := bind_ok h
  obtain ⟨sent, -, h⟩ := bind_ok h
  cases h
  rw [udpStep, hhandled]
  rfl

theorem findClient_known {s : UdpServer} {a : List UInt8} {memory : Bool} {c : Client}
    (h : findClient (knownClients s.clients a memory) a = some c) : c.state = s.stateOf a := by
  unfold knownClients at h
  unfold UdpServer.stateOf
  cases hf : findClient s.clients a with
  | some x =>
    simp only [hf] at h
    exact (congrArg Client.state (Option.some.inj h)).symm
  | none =>
    simp only [hf, addClient] at h
    split_ifs at h with hm
    · simp only [findClient, List.find?_cons, decide_true] at h
      exact (congrArg Client.state (Option.some.inj h)).symm
    · rw [hf] at h
      cases h

theorem findClient_known_ne {clients : List Client} {a b : List UInt8} {memory : Bool} (h : b ≠ a) :
    findClient (knownClients clients a memory) b = findClient clients b := by
  unfold knownClients addClient
  split
  · rfl
  · split_ifs
    · simp [findClient, Ne.symm h]
    · rfl

/-- A datagram moves the state of its own address and of no other. -/
theorem udpStep_datagram {s s' : UdpServer} {a d : List UInt8} {memory : Bool}
    (h : udpStep s (.datagram a d memory) = .ok s') :
    s'.stateOf a = (s.stateOf a).next d ∧ ∀ b, b ≠ a → s'.stateOf b = s.stateOf b := by
  obtain ⟨⟨t, out⟩, hh, h⟩ := bind_ok h
  cases h
  obtain ⟨c, hc, hh⟩ := bind_ok hh
  have hfound := demand_ok hc
  have hst := findClient_known hfound
  have moved : ∀ st globals, s' = ⟨setClientState a st (knownClients s.clients a memory), globals⟩ →
      s'.stateOf a = st ∧ ∀ b, b ≠ a → s'.stateOf b = s.stateOf b := by
    rintro st globals rfl
    refine ⟨by simp only [UdpServer.stateOf, findClient_setClientState hfound], fun b hb => ?_⟩
    simp only [UdpServer.stateOf, findClient_setClientState_ne hb, findClient_known_ne hb]
  have kept : ∀ globals, s' = ⟨knownClients s.clients a memory, globals⟩ →
      s'.stateOf a = c.state ∧ ∀ b, b ≠ a → s'.stateOf b = s.stateOf b := by
    rintro globals rfl
    refine ⟨by simp only [UdpServer.stateOf, hfound], fun b hb => ?_⟩
    simp only [UdpServer.stateOf, findClient_known_ne hb]
  have hauth : ∀ st sent, (c.state = .waitUsername ∨ c.state = .waitPassword) →
      handleAuthentication c.state (d.take (bufferSize - 1) ++ [0]) (d.take (bufferSize - 1)).length =
        .ok (st, sent) → st = c.state.next d := by
    intro st sent hwait hok
    have hspec := handleAuthentication_spec hwait hok
    rw [userText_take (by decide), shortUser_take (by decide)] at hspec
    rcases hwait with hw | hw <;> rw [hw] at hspec ⊢ <;>
      rcases hspec with ⟨hp, rfl⟩ | ⟨hp, rfl⟩ <;> simp [ClientState.next, hp]
  rw [← hst]
  cases hcs : c.state with
  | init =>
    simp only [hcs, Except.ok.injEq, Prod.mk.injEq] at hh
    exact moved _ _ hh.1.symm
  | waitUsername | waitPassword =>
    simp only [hcs] at hh
    obtain ⟨⟨st, sent⟩, hok, hh⟩ := bind_ok hh
    rw [← hcs] at hok
    simp only [Except.ok.injEq, Prod.mk.injEq] at hh
    rw [← hcs, ← hauth st sent (by simp [hcs]) hok]
    exact moved _ _ hh.1.symm
  | authSuccess =>
    simp only [hcs] at hh
    obtain ⟨⟨globals, rta⟩, -, hh⟩ := bind_ok hh
    simp only [Except.ok.injEq, Prod.mk.injEq] at hh
    have := kept _ hh.1.symm
    rwa [hcs] at this
  | authFailed =>
    simp only [hcs, Except.ok.injEq, Prod.mk.injEq] at hh
    have := kept _ hh.1.symm
    rwa [hcs] at this

theorem udpStep_failure {s s' : UdpServer} (h : udpStep s .failure = .ok s') : s' = s := by
  cases h
  rfl

/-- The address gave the word when it was asked for a name, and has sent nothing since. -/
def Named (s₀ : UdpServer) (a : List UInt8) (es : List UdpEvent) : Prop :=
  ∃ xs d m ys s₁, es = xs ++ .datagram a d m :: ys ∧ run udpStep s₀ xs = .ok s₁ ∧
    s₁.stateOf a = .waitUsername ∧ UserText d ∧ ∀ d' m', UdpEvent.datagram a d' m' ∉ ys

/-- The word again was the next thing that a named address sent. -/
def Authenticated (s₀ : UdpServer) (a : List UInt8) (es : List UdpEvent) : Prop :=
  ∃ xs d m ys, es = xs ++ .datagram a d m :: ys ∧ Named s₀ a xs ∧ UserText d

theorem Named.concat {s₀ : UdpServer} {a : List UInt8} {es : List UdpEvent} {e : UdpEvent}
    (h : Named s₀ a es) (he : ∀ d m, e ≠ .datagram a d m) : Named s₀ a (es ++ [e]) := by
  obtain ⟨xs, d, m, ys, s₁, rfl, hrun, hst, hu, hys⟩ := h
  refine ⟨xs, d, m, ys ++ [e], s₁, by simp, hrun, hst, hu, fun d' m' hm => ?_⟩
  rcases List.mem_append.mp hm with hm | hm
  · exact hys d' m' hm
  · exact he d' m' (List.mem_singleton.mp hm).symm

theorem Authenticated.concat {s₀ : UdpServer} {a : List UInt8} {es : List UdpEvent}
    (h : Authenticated s₀ a es) (e : UdpEvent) : Authenticated s₀ a (es ++ [e]) := by
  obtain ⟨xs, d, m, ys, rfl, hn, hu⟩ := h
  exact ⟨xs, d, m, ys ++ [e], by simp, hn, hu⟩

/-- What the state of an address says about the events so far. -/
def Recorded (s₀ : UdpServer) (a : List UInt8) (es : List UdpEvent) (s : UdpServer) : Prop :=
  (s.stateOf a = .waitPassword → Named s₀ a es) ∧
    (s.stateOf a = .authSuccess → Authenticated s₀ a es)

/-- While it is asked for the name or the password, the address does not break off in the word. -/
def Unbroken (a : List UInt8) (s : UdpServer) (e : UdpEvent) : Prop :=
  ∀ d m, e = .datagram a d m →
    s.stateOf a = .waitUsername ∨ s.stateOf a = .waitPassword → ¬ ShortUser d

theorem recorded_step {s₀ s s' : UdpServer} {a : List UInt8} {es : List UdpEvent} {e : UdpEvent}
    (hrun : run udpStep s₀ es = .ok s) (hr : Recorded s₀ a es s) (hc : Unbroken a s e)
    (h : udpStep s e = .ok s') : Recorded s₀ a (es ++ [e]) s' := by
  by_cases hown : ∃ d m, e = .datagram a d m
  · obtain ⟨d, m, rfl⟩ := hown
    have hnext := (udpStep_datagram h).1
    have hshort := hc d m rfl
    constructor <;> intro hst <;> rw [hnext] at hst
    · cases hs : s.stateOf a with
      | waitUsername =>
        have hp : UserText d ∨ ShortUser d := by
          by_contra hn
          simp [hs, ClientState.next, hn] at hst
        exact ⟨es, d, m, [], s, rfl, hrun, hs, hp.resolve_right (hshort (Or.inl hs)), by simp⟩
      | waitPassword =>
        rw [hs, ClientState.next] at hst
        split_ifs at hst
      | init | authSuccess | authFailed =>
        rw [hs] at hst
        cases hst
    · cases hs : s.stateOf a with
      | waitPassword =>
        have hp : UserText d ∨ ShortUser d := by
          by_contra hn
          simp [hs, ClientState.next, hn] at hst
        exact ⟨es, d, m, [], rfl, hr.1 hs, hp.resolve_right (hshort (Or.inr hs))⟩
      | waitUsername =>
        rw [hs, ClientState.next] at hst
        split_ifs at hst
      | authSuccess => exact (hr.2 hs).concat _
      | init | authFailed =>
        rw [hs] at hst
        cases hst
  · have hother : ∀ d m, e ≠ .datagram a d m := fun d m he => hown ⟨d, m, he⟩
    have hsame : s'.stateOf a = s.stateOf a := by
      cases e with
      | failure => rw [udpStep_failure h]
      | datagram b d m =>
        have hba : a ≠ b := fun hab => hother d m (hab ▸ rfl)
        exact (udpStep_datagram h).2 a hba
    rw [Recorded, hsame]
    exact ⟨fun hst => (hr.1 hst).concat hother, fun hst => (hr.2 hst).concat e⟩

/-- An address whose datagrams do not break off in the word is only authenticated by giving
the whole word twice in a row. -/
theorem udp_authenticated {g : Globals} {a : List UInt8} {es : List UdpEvent} {s : UdpServer}
    (hmeets : Meets udpStep (Unbroken a) { clients := [], globals := g } es)
    (hrun : run udpStep { clients := [], globals := g } es = .ok s)
    (hst : s.stateOf a = .authSuccess) :
    Authenticated { clients := [], globals := g } a es := by
  have hrec : Recorded { clients := [], globals := g } a es s := by
    refine run_invariant ?_ (fun xs e t u => recorded_step) hmeets hrun
    constructor <;> intro h <;> cases h
  exact hrec.2 hst

abbrev blankServer : UdpServer := { clients := [], globals := initialGlobals }

abbrev wordTwice : List UdpEvent :=
  [.datagram (ascii "10.0.0.7") (ascii "hello") true, .datagram (ascii "10.0.0.7") (ascii "user\n") true,
    .datagram (ascii "10.0.0.7") (ascii "USER") true]

theorem udp_authenticated_word_twice :
    Authenticated blankServer (ascii "10.0.0.7") wordTwice := by
  have hrun : run udpStep blankServer wordTwice =
      .ok { clients := [⟨ascii "10.0.0.7", .authSuccess⟩], globals := initialGlobals } := by
    decide +kernel
  refine udp_authenticated (Meets.of_events ?_) hrun (by decide)
  intro e he t d m hd _
  subst hd
  simp only [List.mem_cons, List.not_mem_nil, or_false, UdpEvent.datagram.injEq] at he
  rcases he with ⟨-, rfl, -⟩ | ⟨-, rfl, -⟩ | ⟨-, rfl, -⟩ <;> decide

/-- Three empty datagrams authenticate an address that never sent the word. -/
theorem udp_authenticated_by_silence :
    (∃ s, run udpStep blankServer (List.replicate 3 (.datagram (ascii "10.0.0.7") [] true)) = .ok s ∧
      s.stateOf (ascii "10.0.0.7") = .authSuccess) ∧
    ¬ Authenticated blankServer (ascii "10.0.0.7")
      (List.replicate 3 (.datagram (ascii "10.0.0.7") [] true)) := by
  constructor
  · refine ⟨{ clients := [⟨ascii "10.0.0.7", .authSuccess⟩], globals := initialGlobals }, ?_, ?_⟩ <;>
      decide +kernel
  · rintro ⟨xs, d, m, ys, he, -, hu⟩
    have hm : UdpEvent.datagram (ascii "10.0.0.7") d m ∈
        List.replicate 3 (UdpEvent.datagram (ascii "10.0.0.7") [] true) := by
      rw [he]
      simp
    have hd := List.eq_of_mem_replicate hm
    cases hd
    revert hu
    decide

end Smtpd
