import Smtpd.Admission
import Smtpd.Descriptors
import Smtpd.Lib.Shares

namespace Smtpd

open Checked Runs Shares

/-- The descriptors of the files that wait for the message of a connection. -/
def Key.files (key : Key) : List Nat := key.data.rcptList.filterMap RcptNode.fileFd

/-- What a connection holds: its socket and its files. -/
def Key.descriptors (key : Key) : List Nat := if key.registered then key.fd :: key.files else []

/-- The descriptor that an act opens, writes to or closes. -/
def Act.touches : Act → Option Nat
  | .opened fd | .wrote fd _ | .closed fd => some fd
  | _ => none

/-- From one state of the system to the next the holder of some descriptors comes to hold others, and touches none but
those that are its own or were not in use. -/
structure Os.Uses (os : Os) (p : List Nat) (os' : Os) (q : List Nat) : Prop where
  turns : Turns os.fds p os'.fds q
  touches : ∃ acts, os'.trace = os.trace ++ acts ∧ ∀ T : Nat → Prop, (∀ fd, fd ∉ os.fds → T fd) → (∀ fd ∈ p, T fd) →
    (∀ fd, fd ∉ os'.fds → T fd) ∧ (∀ fd ∈ q, T fd) ∧ ∀ a ∈ acts, ∀ fd, a.touches = some fd → T fd

section Using

variable {os os' os₁ : Os} {p q r : List Nat} {fd : Nat} {env : Env}

theorem Os.Uses.trans (h : os.Uses p os₁ q) (h' : os₁.Uses q os' r) : os.Uses p os' r := by
  obtain ⟨acts, htrace, hacts⟩ := h.touches
  obtain ⟨acts', htrace', hacts'⟩ := h'.touches
  refine ⟨h.turns.trans h'.turns, acts ++ acts', by rw [htrace', htrace, List.append_assoc], ?_⟩
  intro T hfree hown
  obtain ⟨hfree₁, hown₁, htouch⟩ := hacts T hfree hown
  obtain ⟨hfree', hown', htouch'⟩ := hacts' T hfree₁ hown₁
  refine ⟨hfree', hown', fun a ha => ?_⟩
  exact (List.mem_append.mp ha).elim (htouch a) (htouch' a)

/-- Where the table stays the same, and what is touched is held. -/
theorem Os.Uses.same {acts : List Act} (hfds : os'.fds = os.fds) (htrace : os'.trace = os.trace ++ acts)
    (hheld : q.Subperm p) (htouch : ∀ a ∈ acts, ∀ fd, a.touches = some fd → fd ∈ p) : os.Uses p os' q := by
  refine ⟨?_, acts, htrace, fun T hfree hown => ⟨?_, ?_, ?_⟩⟩
  · rw [hfds]
    exact Turns.keep os.fds hheld
  · rw [hfds]
    exact hfree
  · exact fun fd hfd => hown fd (hheld.subset hfd)
  · exact fun a ha fd hfd => hown fd (htouch a ha fd hfd)

theorem Os.Uses.idle {acts : List Act} (hfds : os'.fds = os.fds) (htrace : os'.trace = os.trace ++ acts)
    (hidle : ∀ a ∈ acts, a.touches = none) (p : List Nat) : os.Uses p os' p := by
  refine Os.Uses.same hfds htrace (List.Subperm.refl p) fun a ha fd hfd => ?_
  rw [hidle a ha] at hfd
  cases hfd

theorem Os.Uses.refl (os : Os) (p : List Nat) : os.Uses p os p :=
  Os.Uses.idle rfl (List.append_nil os.trace).symm (fun _ ha => absurd ha List.not_mem_nil) p

theorem Os.Uses.keep (os : Os) (h : q.Subperm p) : os.Uses p os q :=
  Os.Uses.same rfl (List.append_nil os.trace).symm h fun _ ha => absurd ha List.not_mem_nil

theorem Os.Uses.frame (h : os.Uses p os' q) (other : List Nat) : os.Uses (p ++ other) os' (q ++ other) := by
  obtain ⟨acts, htrace, hacts⟩ := h.touches
  refine ⟨h.turns.frame other, acts, htrace, fun T hfree hown => ?_⟩
  obtain ⟨hfree', hown', htouch⟩ := hacts T hfree fun fd hfd => hown fd (List.mem_append_left other hfd)
  refine ⟨hfree', fun fd hfd => ?_, htouch⟩
  exact (List.mem_append.mp hfd).elim (hown' fd) fun hother => hown fd (List.mem_append_right p hother)

theorem Os.Uses.opened {acts : List Act} (p : List Nat) (hnew : fd ∉ os.fds) (hfds : os'.fds = fd :: os.fds)
    (htrace : os'.trace = os.trace ++ acts) (honly : ∀ a ∈ acts, ∀ x, a.touches = some x → x = fd) :
    os.Uses p os' (fd :: p) := by
  refine ⟨?_, acts, htrace, fun T hfree hown => ⟨?_, ?_, ?_⟩⟩
  · rw [hfds]
    exact Turns.take p hnew
  · intro x hx
    rw [hfds] at hx
    exact hfree x fun hmem => hx (List.mem_cons_of_mem fd hmem)
  · exact List.forall_mem_cons.mpr ⟨hfree fd hnew, hown⟩
  · intro a ha x hx
    rw [honly a ha x hx]
    exact hfree fd hnew

theorem Os.Uses.closed (os : Os) (fd : Nat) (p : List Nat) : os.Uses (fd :: p) (os.close fd) p := by
  refine ⟨Turns.giveBack os.fds p fd, [.closed fd], rfl, fun T hfree hown => ⟨?_, ?_, ?_⟩⟩
  · intro x hx
    by_cases hsame : x = fd
    · rw [hsame]
      exact hown fd List.mem_cons_self
    · exact hfree x fun hmem => hx ((List.mem_erase_of_ne hsame).mpr hmem)
  · exact fun x hx => hown x (List.mem_cons_of_mem fd hx)
  · intro a ha x hx
    rw [List.mem_singleton.mp ha] at hx
    cases hx
    exact hown fd List.mem_cons_self

theorem Os.Uses.wrote (os : Os) {bytes : List UInt8} (h : fd ∈ p) : os.Uses p (os.write fd bytes) p := by
  refine Os.Uses.same rfl rfl (List.Subperm.refl p) fun a ha x hx => ?_
  rw [List.mem_singleton.mp ha] at hx
  cases hx
  exact h

theorem onDirs_touches {acts : List Act} (h : ∀ a ∈ acts, a.OnDirs) : ∀ a ∈ acts, a.touches = none := by
  intro a ha
  have hdirs := h a ha
  cases a with
  | call c => rfl
  | _ => exact hdirs.elim

theorem ensureDir_uses {path : List UInt8} (h : ensureDir env os path = .ok os') (p : List Nat) : os.Uses p os' p := by
  obtain ⟨acts, htrace, hdirs⟩ := ensureDir_acts h
  exact Os.Uses.idle (ensureDir_fds h) htrace (onDirs_touches hdirs) p

theorem takeFd_uses (os : Os) (p : List Nat) : os.Uses p os.takeFd.2 (os.takeFd.1 :: p) := by
  refine Os.Uses.opened p (lowestFree_not_mem os.fds) rfl rfl fun a ha x hx => ?_
  rw [List.mem_singleton.mp ha] at hx
  exact (Option.some.inj hx).symm

theorem recorded_uses (os : Os) (c : SysCall) (p : List Nat) : os.Uses p (os.record (.call c)) p := by
  refine @Os.Uses.idle os (os.record (.call c)) [.call c] rfl rfl (fun a ha => ?_) p
  rw [List.mem_singleton.mp ha]
  rfl

theorem rename_uses (env : Env) (os : Os) (old new : List UInt8) (p : List Nat) : os.Uses p (os.rename env old new).2 p := by
  refine Os.Uses.idle ?_ (rename_trace env os old new) (fun a ha => ?_) p
  · simp only [Os.rename]
    split <;> rfl
  · rw [List.mem_singleton.mp ha]
    rfl

theorem openFile_uses {path : List UInt8} (h : os.openFile env path = (some fd, os')) (p : List Nat) :
    os.Uses p os' (fd :: p) := by
  obtain ⟨hfds, hnew⟩ := Os.openFile_fds h
  refine Os.Uses.opened p hnew hfds (openFile_trace h) fun a ha x hx => ?_
  simp only [List.mem_cons, List.not_mem_nil, or_false] at ha
  rcases ha with rfl | rfl
  · cases hx
  · exact (Option.some.inj hx).symm

/-- Of the descriptors around a pipe to the program one is left. -/
theorem pipeToProgram_uses {program : Option (List UInt8)} {w : Nat}
    (h : pipeToProgram env os program fd = .ok (w, os')) (p : List Nat) : os.Uses (fd :: p) os' (w :: p) := by
  unfold pipeToProgram at h
  split at h
  · cases h
  next r w' os₁ hpipe =>
    dsimp only at h
    split at h
    · cases h
    · cases h
      have hopened : os.Uses (fd :: p) os₁ (w :: r :: fd :: p) := by
        simp only [Os.pipe] at hpipe
        split at hpipe
        · cases hpipe
        · cases hpipe
          exact ((recorded_uses os .pipe _).trans (takeFd_uses _ _)).trans (takeFd_uses _ _)
      refine (hopened.trans (recorded_uses os₁ (.fork program) _)).trans ?_
      have hswap : (r :: fd :: w :: p).Subperm (w :: r :: fd :: p) := by
        have hpr : (r :: fd :: w :: p).Perm (w :: r :: fd :: p) :=
          ((List.Perm.swap w fd p).cons r).trans (List.Perm.swap w r (fd :: p))
        exact hpr.subperm
      exact ((Os.Uses.keep _ hswap).trans (Os.Uses.closed _ r _)).trans (Os.Uses.closed _ fd _)

theorem createMailFile_uses {uuidStr mailfrom : List UInt8} {program : Option (List UInt8)} {transformations : Bool}
    {current node : RcptNode} (h : createMailFile env os uuidStr mailfrom program transformations current = .ok (node, os'))
    (p : List Nat) : ∃ fd, node.fileFd = some fd ∧ os.Uses p os' (fd :: p) := by
  obtain ⟨email, -, h⟩ := bind_ok h
  obtain ⟨os₁, h₁, h⟩ := bind_ok h
  obtain ⟨os₂, h₂, h⟩ := bind_ok h
  obtain ⟨os₃, h₃, h⟩ := bind_ok h
  obtain ⟨os₄, h₄, h⟩ := bind_ok h
  have hdirs : os.Uses p os₄ p :=
    (((ensureDir_uses h₁ p).trans (ensureDir_uses h₂ p)).trans (ensureDir_uses h₃ p)).trans (ensureDir_uses h₄ p)
  dsimp only at h
  split at h
  · cases h
  next fd os₅ hopen =>
    have hfile := hdirs.trans (openFile_uses hopen p)
    obtain ⟨sender, -, h⟩ := bind_ok h
    obtain ⟨header, hheader⟩ : ∃ header, header = snprintf 512 (ascii "From " ++ sender ++ ascii "  " ++ env.time ++
      ascii "\n") := ⟨_, rfl⟩
    rw [← hheader] at h
    have hwritten := hfile.trans (@Os.Uses.wrote _ fd os₅ header List.mem_cons_self)
    split at h
    · obtain ⟨⟨w, os₆⟩, hpipe, h⟩ := bind_ok h
      cases h
      exact ⟨w, rfl, hwritten.trans (pipeToProgram_uses hpipe p)⟩
    · cases h
      exact ⟨fd, rfl, hwritten⟩

theorem createMailFilesFrom_uses {k : Nat} {mailfrom : List UInt8} {program : Option (List UInt8)}
    {transformations : Bool} {head head' : List RcptNode}
    (h : createMailFilesFrom env k os mailfrom program transformations head = .ok (head', os')) (p : List Nat) :
    os.Uses p os' (head'.filterMap RcptNode.fileFd ++ p) := by
  induction head generalizing k os head' p with
  | nil =>
    cases h
    exact Os.Uses.refl _ p
  | cons current next ih =>
    obtain ⟨⟨node, os₁⟩, hnode, h⟩ := bind_ok h
    obtain ⟨⟨rest, os₂⟩, hrest, h⟩ := bind_ok h
    cases h
    obtain ⟨fd, hfd, hone⟩ := createMailFile_uses hnode p
    have hall := hone.trans (ih hrest (fd :: p))
    rw [List.filterMap_cons_some hfd, List.cons_append]
    exact hall.trans (Os.Uses.keep _ List.perm_middle.symm.subperm)

/-- The descriptors that are there after `create_mails_files` for the recipients. -/
theorem createMailsFiles_uses {mailfrom : List UInt8} {program : Option (List UInt8)} {transformations : Bool}
    {head head' : List RcptNode} (h : createMailsFiles env os head mailfrom program transformations = .ok (head', os'))
    (p : List Nat) : os.Uses p os' (head'.filterMap RcptNode.fileFd ++ p) := by
  obtain ⟨os₁, hdir, h⟩ := bind_ok h
  exact (ensureDir_uses hdir p).trans (createMailFilesFrom_uses h p)

theorem closeFds_uses {head : List RcptNode} (h : closeFds env os head = .ok os') (p : List Nat) :
    os.Uses (head.filterMap RcptNode.fileFd ++ p) os' p := by
  induction head generalizing os with
  | nil =>
    cases h
    exact Os.Uses.refl _ p
  | cons current next ih =>
    obtain ⟨fd, hfd, h⟩ := bind_ok h
    obtain ⟨email, -, h⟩ := bind_ok h
    obtain ⟨filename, -, h⟩ := bind_ok h
    dsimp only at h
    split at h
    · cases h
    · split at h
      · cases h
      · rw [List.filterMap_cons_some (demand_ok hfd), List.cons_append]
        have hmoved := (recorded_uses _ _ _).trans ((rename_uses env _ _ _ _).trans (ih h))
        exact (Os.Uses.closed _ fd _).trans hmoved

theorem writeToFiles_uses {dp : DataParser} {head : List RcptNode} (h : writeToFiles os dp head = .ok os') (p : List Nat) :
    os.Uses (head.filterMap RcptNode.fileFd ++ p) os' (head.filterMap RcptNode.fileFd ++ p) := by
  induction head generalizing os p with
  | nil =>
    cases h
    exact Os.Uses.refl _ p
  | cons current next ih =>
    obtain ⟨fd, hfd, h⟩ := bind_ok h
    rw [List.filterMap_cons_some (demand_ok hfd), List.cons_append]
    have hrest := ih h (fd :: p)
    have hmiddle := @List.perm_middle _ fd (next.filterMap RcptNode.fileFd) p
    have hothers := ((Os.Uses.keep _ hmiddle.subperm).trans hrest).trans (Os.Uses.keep _ hmiddle.symm.subperm)
    exact Os.Uses.trans (Os.Uses.wrote os List.mem_cons_self) hothers

end Using

section Turns

variable {env : Env} {key key₁ key₂ key' : Key} {st next : SmtpState}

/-- Between two states of a connection that stays registered. -/
def Key.Uses (key key' : Key) : Prop := key.os.Uses (key.fd :: key.files) key'.os (key'.fd :: key'.files)

theorem Key.Uses.trans (h : key.Uses key₁) (h' : key₁.Uses key') : key.Uses key' := Os.Uses.trans h h'

/-- Where the socket is read or written, and nothing else happens to descriptors. -/
theorem Key.Uses.idle {acts : List Act} (hfd : key'.fd = key.fd) (hfiles : key'.files = key.files)
    (hfds : key'.os.fds = key.os.fds) (htrace : key'.os.trace = key.os.trace ++ acts)
    (hidle : ∀ a ∈ acts, a.touches = none) : key.Uses key' := by
  unfold Key.Uses
  rw [hfd, hfiles]
  exact Os.Uses.idle hfds htrace hidle _

theorem touches_received (received : List (List UInt8)) : ∀ a ∈ received.map Act.received, a.touches = none := by
  intro a ha
  obtain ⟨bytes, -, rfl⟩ := List.mem_map.mp ha
  rfl

theorem touches_sent (sent : List (List UInt8)) : ∀ a ∈ sent.map Act.sent, a.touches = none := by
  intro a ha
  obtain ⟨bytes, -, rfl⟩ := List.mem_map.mp ha
  rfl

theorem Key.Uses.input (key : Key) (rb : Buffer) (g : Globals) (received : List (List UInt8)) :
    key.Uses (key.withInput rb g received) :=
  Key.Uses.idle rfl rfl rfl rfl (touches_received received)

theorem Key.Uses.output (key : Key) (wb : Buffer) (i : Interest) (sent : List (List UInt8)) :
    key.Uses (key.withOutput wb i sent) :=
  Key.Uses.idle rfl rfl rfl rfl (touches_sent sent)

theorem Key.Uses.same (hfd : key'.fd = key.fd) (hfiles : key'.files = key.files) (hos : key'.os = key.os) :
    key.Uses key' := by
  have htrace : key'.os.trace = key.os.trace ++ [] := by rw [hos, List.append_nil]
  exact Key.Uses.idle hfd hfiles (by rw [hos]) htrace fun _ ha => absurd ha List.not_mem_nil

theorem createRcptNode_fileFd {email : List UInt8} {node : RcptNode} (h : createRcptNode env email = .ok node) :
    node.fileFd = none := by
  unfold createRcptNode at h
  split at h
  · obtain ⟨copy, -, h⟩ := bind_ok h
    cases h
    rfl
  · cases h

theorem Key.Serves.uses {text : List UInt8} {more : List Entry} (h : key.Serves env st text next more key₁) :
    key.Uses key₁ := by
  cases h with
  | greeted | refused => exact Os.Uses.refl _ _
  | sender mail copied =>
    obtain ⟨mailfrom, rfl⟩ := copyMailfrom_ok copied
    exact Key.Uses.same rfl rfl rfl
  | recipient rcpt takes added =>
    obtain ⟨node, hnode, added⟩ := bind_ok added
    cases added
    refine Key.Uses.same rfl ?_ rfl
    exact List.filterMap_cons_none (createRcptNode_fileFd hnode)
  | @data rcptList os data created =>
    have hall := createMailsFiles_uses created (key.fd :: key.files)
    refine Os.Uses.trans hall (Os.Uses.keep os ?_)
    have hmiddle := @List.perm_middle _ key.fd (rcptList.filterMap RcptNode.fileFd) key.files
    refine List.Subperm.trans ?_ hmiddle.symm.subperm
    exact (List.subperm_cons key.fd).mpr (List.sublist_append_left _ _).subperm

theorem Key.Answer.uses (h : key.Answer env st next key₁) : key.Uses key₁ := by
  cases h with
  | @quit wb i sent => exact Key.Uses.output key wb i sent
  | turnedAway => exact Os.Uses.refl _ _
  | served serves => exact serves.uses

theorem Key.ReadsBody.uses {g : Globals} {received : List (List UInt8)} {front : List UInt8} {rb : Buffer}
    {dp : DataParser} {os : Os} (h : key.ReadsBody env g received front rb dp os) :
    key.os.Uses (key.fd :: key.files) os (key.fd :: key.files) := by
  have hwritten := writeToFiles_uses h.written [key.fd]
  have hends := List.perm_append_singleton key.fd key.files
  refine Os.Uses.trans (Key.Uses.input key rb g received) ?_
  exact ((Os.Uses.keep _ hends.subperm).trans hwritten).trans (Os.Uses.keep _ hends.symm.subperm)

theorem Key.Turn.uses (h : key.Turn env st next key₁) : key.Uses key₁ := by
  cases h with
  | @lost g => exact Key.Uses.input key _ g []
  | @listened rb g received p => exact Key.Uses.input key rb g received
  | @answered rb g received p _ _ _ _ _ _ _ answer =>
    exact Key.Uses.trans (Key.Uses.input key rb g received) answer.uses
  | received _ reads => exact reads.uses
  | stored _ reads => exact reads.uses
  | unsent => exact Key.Uses.output key _ _ []
  | sending | sent => exact Key.Uses.output key _ _ _

theorem changeState_uses (h : changeState env st next key = .ok key') : key.Uses key' := by
  rcases changeState_ok h with ⟨-, rfl⟩ | ⟨-, key₁, hleave, rfl⟩
  · exact Os.Uses.refl _ _
  · obtain ⟨hfd, hos, hlist, -⟩ := arrive_same next key₁
    have harrive : key₁.Uses (key₁.arrive next) := Key.Uses.same hfd (congrArg (List.filterMap RcptNode.fileFd) hlist) hos
    refine Key.Uses.trans ?_ harrive
    cases hleave with
    | plain => exact Os.Uses.refl _ _
    | body => exact Key.Uses.same rfl rfl rfl
    | commit _ closed =>
      have hends := List.perm_append_singleton key.fd key.files
      exact (Os.Uses.keep _ hends.subperm).trans (closeFds_uses closed [key.fd])

/-- What a connection holds before and after an event that it handles. -/
theorem Key.Passes.uses (hk : key.Agrees st) (h : key.Passes env st next key₁ key₂ key') :
    key.os.Uses key.descriptors key'.os key'.descriptors := by
  have hreg₂ := (changeState_turned (h.turn.turned hk h.registered) h.hooks).registered
  have hmoved : key.os.Uses key.descriptors key₂.os (key₂.fd :: key₂.files) := by
    rw [Key.descriptors, if_pos h.registered]
    exact Key.Uses.trans h.turn.uses (changeState_uses h.hooks)
  refine hmoved.trans ?_
  rcases settle_eq hreg₂ h.settled with ⟨-, rfl⟩ | ⟨-, rfl⟩
  · exact (Os.Uses.closed key₂.os key₂.fd key₂.files).trans (Os.Uses.keep _ (List.nil_subperm))
  · rw [Key.descriptors, if_pos hreg₂]
    exact Os.Uses.refl _ _

theorem sessionStep_uses {op : Ready} (hk : key.Agrees key.state) (h : sessionStep key (.ready op env) = .ok key') :
    key.os.Uses key.descriptors key'.os key'.descriptors := by
  rcases sessionStep_turn hk.sound hk.output h with
    ⟨op, env, -, -, rfl⟩ | ⟨globals, tree, fds, he, -⟩ | ⟨op, env, next, key₁, key₂, -, -, hp⟩
  · exact Os.Uses.refl _ _
  · cases he
  · exact hp.uses hk

end Turns

/-- The system accepts a client at a descriptor that is not in use, and nobody else opens or closes any. -/
def ServerEvent.Undisturbed (s : Server) : ServerEvent → Prop
  | .accept _ outcome => ∀ client ∈ outcome.client, client ∉ s.fds
  | .elsewhere _ fds => fds = s.fds
  | _ => True

instance (s : Server) : DecidablePred (ServerEvent.Undisturbed s)
  | .accept _ outcome => inferInstanceAs (Decidable (∀ client ∈ outcome.client, client ∉ s.fds))
  | .elsewhere _ fds => inferInstanceAs (Decidable (fds = s.fds))
  | .ready .. | .datagram _ | .setMaxUsers _ | .setNewStatus _ => isTrue trivial

/-- The descriptors of the connections are apart from one another and from those that are reserved. -/
def Server.Holds (s : Server) (reserved : List Nat) : Prop := Apart s.fds (reserved :: s.connections.map Key.descriptors)

section Servers

variable {s₀ s s' : Server} {es : List ServerEvent} {e : ServerEvent} {reserved : List Nat} {key : Key} {i : Nat}

theorem held_get (reserved : List Nat) (hi : s.connections[i]? = some key) :
    (reserved :: s.connections.map Key.descriptors)[i + 1]? = some key.descriptors := by
  rw [List.getElem?_cons_succ, List.getElem?_map, hi, Option.map_some]

theorem serverStep_holds (hs : s.Grown) (h : s.Holds reserved) (hfree : e.Undisturbed s)
    (hstep : serverStep s e = .ok s') : s'.Holds reserved := by
  cases e with
  | accept env outcome =>
    obtain ⟨⟨globals, os, r⟩, haccept, hstep⟩ := bind_ok hstep
    cases hstep
    obtain ⟨client, hclient, -, ⟨-, rfl, key, rfl, hw⟩ | ⟨-, rfl, rfl⟩⟩ := smtpPassiveAccept_ok haccept
    · have hnew : Turns s.fds [] (client :: s.fds) key.descriptors := by
        have hfiles : key.files = [] := by rw [Key.files, hw.fresh.rcptList, List.filterMap_nil]
        rw [Key.descriptors, if_pos hw.registered, hw.fd, hfiles]
        exact Turns.take [] (hfree client hclient)
      have happend := Apart.append h hnew
      simpa [Server.Holds] using happend
    · have hsame : (client :: s.fds).erase client = s.fds := List.erase_cons_head client s.fds
      simpa [Server.Holds, Os.close, Os.record, hsame] using h
  | ready i op env =>
    rcases serverStep_ready hstep with ⟨-, rfl⟩ | ⟨key, key', hi, hsession, rfl⟩
    · exact h
    · obtain ⟨key₀, es, ha, hrun⟩ := hs.sync hi
      have huses := sessionStep_uses (accepted_agrees ha hrun) hsession
      have hturn := h.turn_get (held_get reserved hi) huses.turns
      rw [List.set_cons_succ, ← List.map_set] at hturn
      exact hturn
  | datagram e =>
    obtain ⟨management, -, hstep⟩ := bind_ok hstep
    cases hstep
    exact h
  | setMaxUsers | setNewStatus =>
    cases hstep
    exact h
  | elsewhere tree fds =>
    cases hstep
    have hsame : fds = s.fds := hfree
    subst hsame
    exact h

theorem server_holds (h₀ : s₀.connections = []) (hnodup : s₀.fds.Nodup)
    (hfree : Meets serverStep (fun s e => e.Undisturbed s) s₀ es) (hrun : run serverStep s₀ es = .ok s) :
    s.Holds s₀.fds := by
  refine run_invariant (I := fun _ s => s.Holds s₀.fds) ?_ ?_ hfree hrun
  · refine ⟨hnodup, ?_⟩
    rw [h₀, List.map_nil, List.flatten_cons, List.flatten_nil, List.append_nil]
  · intro xs e t u hxs hs he hstep
    exact serverStep_holds (server_grown h₀ hxs) hs he hstep

/-- Whatever the order of events, the sockets and the files of all connections are open, each for one connection
only, and none is among the descriptors of the server itself. What a connection opens, writes to or closes while it
handles an event is neither one of these nor held by another connection. -/
theorem descriptors_apart (h₀ : s₀.connections = []) (hnodup : s₀.fds.Nodup)
    (hfree : Meets serverStep (fun s e => e.Undisturbed s) s₀ es) (hrun : run serverStep s₀ es = .ok s) :
    (∀ fd ∈ s₀.fds, fd ∈ s.fds) ∧
    (∀ (i : Nat) (key : Key), s.connections[i]? = some key →
      key.descriptors.Nodup ∧ (∀ fd ∈ key.descriptors, fd ∈ s.fds ∧ fd ∉ s₀.fds) ∧
      (∀ (j : Nat) (other : Key), s.connections[j]? = some other → i ≠ j → key.descriptors.Disjoint other.descriptors) ∧
      ∀ op env key', sessionStep (s.sync key) (.ready op env) = .ok key' →
        ∃ acts, key'.os.trace = key.os.trace ++ acts ∧ ∀ a ∈ acts, ∀ fd, a.touches = some fd →
          fd ∉ s₀.fds ∧ ∀ (j : Nat) (other : Key), s.connections[j]? = some other → i ≠ j → fd ∉ other.descriptors) := by
  have hholds := server_holds h₀ hnodup hfree hrun
  have hfirst : (s₀.fds :: s.connections.map Key.descriptors)[0]? = some s₀.fds := rfl
  refine ⟨fun fd hfd => hholds.mem List.mem_cons_self hfd, fun i key hi => ?_⟩
  have hget := held_get s₀.fds hi
  have hmem := List.mem_of_getElem? hget
  have hnone : s₀.fds.Disjoint key.descriptors := hholds.get_disjoint hfirst hget (Nat.succ_ne_zero i).symm
  have hothers : ∀ (j : Nat) (other : Key), s.connections[j]? = some other → i ≠ j →
      key.descriptors.Disjoint other.descriptors :=
    fun j other hj hne => hholds.get_disjoint hget (held_get s₀.fds hj) (Nat.succ_ne_succ_iff.mpr hne)
  refine ⟨hholds.pairwise.1 _ hmem, fun fd hfd => ⟨hholds.mem hmem hfd, fun hres => hnone hres hfd⟩, hothers, ?_⟩
  intro op env key' hsession
  obtain ⟨key₀, es', ha, hrun'⟩ := (server_grown h₀ hrun).sync hi
  obtain ⟨acts, htrace, hacts⟩ := (sessionStep_uses (accepted_agrees ha hrun') hsession).touches
  -- of the descriptors in use it touches its own only
  have hunused : ∀ x, x ∉ (s.sync key).os.fds → x ∉ s₀.fds ∧ ∀ (j : Nat) (other : Key), s.connections[j]? = some other →
      i ≠ j → x ∉ other.descriptors := by
    intro x hx
    refine ⟨fun hres => hx (hholds.mem List.mem_cons_self hres), fun j other hj _ hother => ?_⟩
    exact hx (hholds.mem (List.mem_of_getElem? (held_get s₀.fds hj)) hother)
  have hown : ∀ x ∈ key.descriptors, x ∉ s₀.fds ∧ ∀ (j : Nat) (other : Key), s.connections[j]? = some other →
      i ≠ j → x ∉ other.descriptors :=
    fun x hx => ⟨fun hres => hnone hres hx, fun j other hj hne hother => hothers j other hj hne hx hother⟩
  exact ⟨acts, htrace, (hacts _ hunused hown).2.2⟩

theorem descriptors_apart_two_users :
    ∃ s, run serverStep startedServer twoUsers = .ok s ∧ s.connections.length = 2 ∧
      (∀ fd ∈ startedServer.fds, fd ∈ s.fds) ∧
      ∀ (i : Nat) (key : Key), s.connections[i]? = some key →
        key.descriptors.Nodup ∧ (∀ fd ∈ key.descriptors, fd ∈ s.fds ∧ fd ∉ startedServer.fds) ∧
        (∀ (j : Nat) (other : Key), s.connections[j]? = some other → i ≠ j →
          key.descriptors.Disjoint other.descriptors) ∧
        ∀ op env key', sessionStep (s.sync key) (.ready op env) = .ok key' →
          ∃ acts, key'.os.trace = key.os.trace ++ acts ∧ ∀ a ∈ acts, ∀ fd, a.touches = some fd →
            fd ∉ startedServer.fds ∧
              ∀ (j : Nat) (other : Key), s.connections[j]? = some other → i ≠ j → fd ∉ other.descriptors := by
  obtain ⟨s, h, hlength⟩ : ∃ s, run serverStep startedServer twoUsers = .ok s ∧ s.connections.length = 2 := by
    apply ok_of_any
    decide +kernel
  have hfree : Meets serverStep (fun s e => e.Undisturbed s) startedServer twoUsers := by
    apply Meets.of_check
    decide +kernel
  exact ⟨s, h, hlength, descriptors_apart rfl (by decide) hfree h⟩

end Servers

end Smtpd
