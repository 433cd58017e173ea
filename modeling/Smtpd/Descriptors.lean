import Smtpd.InterestAgreement
import Smtpd.CommandOrder

namespace Smtpd

open Checked Runs

/-- Open are the descriptor of the client and, if the recipients have files, one for each. -/
def Key.Opens (key : Key) (files : Prop) : Prop :=
  ∃ fds : List Nat, ledger {key.fd} key.os.trace = some (key.fd ::ₘ (fds : Multiset Nat)) ∧
    (files → key.data.rcptList.map RcptNode.fileFd = fds.map some ∧ fds ≠ []) ∧ (¬ files → fds = [])

/-- The recipients of a connection in this state have files. -/
abbrev Key.HasFiles (key : Key) (st : SmtpState) : Prop := st.HasFiles key.data.requestParser.command

section Turns

variable {env : Env} {key key₁ key₂ key' : Key} {st next : SmtpState} {files files' : Prop}

/-- Where no descriptor is opened or closed. -/
theorem Key.Opens.idle (h : key.Opens files) (acts : List Act) (hfd : key₁.fd = key.fd)
    (htrace : key₁.os.trace = key.os.trace ++ acts) (hmoves : moves acts = []) (hfiles : files' ↔ files)
    (hlist : files → key₁.data.rcptList = key.data.rcptList) : key₁.Opens files' := by
  obtain ⟨fds, hl, hmap, hnil⟩ := h
  refine ⟨fds, ?_, fun hf => ?_, fun hf => hnil fun hn => hf (hfiles.mpr hn)⟩
  · rw [hfd, htrace, ledger_append, hl, Option.bind_some, ledger_idle hmoves]
  · rw [hlist (hfiles.mp hf)]
    exact hmap (hfiles.mp hf)

/-- A state that reads a command has no files. -/
theorem not_hasFiles_of_reads {command : RequestCommand} (h : st.readsRequest = true) : ¬ st.HasFiles command := by
  rintro (rfl | rfl | ⟨rfl, -⟩) <;> cases h

theorem not_hasFiles_of_over {command : RequestCommand} (h : next = .error ∨ next = .done) :
    ¬ next.HasFiles command := by
  rcases h with rfl | rfl <;> simp [SmtpState.HasFiles]

theorem not_hasFiles_of_refusal {d : Dialogue} {command : RequestCommand} {request : Request}
    (h : d.refusal command request = some next) : ¬ next.HasFiles command := by
  unfold Dialogue.refusal at h
  split at h
  case h_5 => cases h
  all_goals
    split_ifs at h with hc
    all_goals
      cases h
      simp_all [SmtpState.HasFiles]

/-- An answer to a command opens what `DATA` needs, and nothing else. -/
theorem Key.Serves.opens {text : List UInt8} {more : List Entry} (h : key.Serves env st text next more key₁)
    (hsome : st = .dataRead → key.data.rcptList ≠ []) (ho : key.Opens False) : key₁.Opens (key₁.HasFiles next) := by
  have hsame := h.same
  have hcommand : key₁.data.requestParser.command = key.data.requestParser.command := by
    rw [hsame.2.2.2.2.2.1]
  rw [Key.HasFiles, hcommand]
  cases h with
  | greeted => exact ho.idle [] rfl (by simp) rfl (by simp [SmtpState.HasFiles]) False.elim
  | refused _ refusal =>
    have hnot := not_hasFiles_of_refusal refusal
    exact ho.idle [] rfl (by simp) rfl (by simpa using hnot) False.elim
  | sender mail copied =>
    obtain ⟨mailfrom, rfl⟩ := copyMailfrom_ok copied
    exact ho.idle [] rfl (by simp) rfl (by simp [SmtpState.HasFiles]) False.elim
  | recipient => exact ho.idle [] rfl (by simp) rfl (by simp [SmtpState.HasFiles]) False.elim
  | data data created =>
    obtain ⟨acts, htrace, hmade⟩ := createMailsFiles_acts created
    obtain ⟨fds, hfds, hl⟩ := hmade.opens
    obtain ⟨fds₀, hl₀, -, hnil⟩ := ho
    obtain rfl := hnil id
    have hfiles : SmtpState.dataWrite.HasFiles key.data.requestParser.command := Or.inr (Or.inr ⟨rfl, data⟩)
    have hne : fds ≠ [] := by
      rintro rfl
      have hemails := createMailsFiles_emails created
      rw [List.map_eq_nil_iff.mp hfds, List.map_nil] at hemails
      exact hsome rfl (List.map_eq_nil_iff.mp hemails.symm)
    refine ⟨fds, ?_, fun _ => ⟨hfds, hne⟩, fun hn => absurd hfiles hn⟩
    have hall := ledger_frame {key.fd} hl
    rw [Multiset.zero_add, Multiset.add_comm, Multiset.singleton_add] at hall
    show ledger {key.fd} _ = _
    rw [htrace, ledger_append, hl₀, Option.bind_some]
    exact hall

theorem Key.Answer.opens (h : key.Answer env st next key₁) (hsome : st = .dataRead → key.data.rcptList ≠ [])
    (ho : key.Opens False) :
    key₁.Opens (key₁.HasFiles next) := by
  cases h with
  | @quit wb i sent =>
    exact ho.idle (sent.map .sent) rfl rfl (moves_sent _) (by simp [SmtpState.HasFiles]) False.elim
  | turnedAway => exact ho.idle [] rfl (by simp) rfl (by simp [SmtpState.HasFiles]) False.elim
  | served serves =>
    exact (serves.opens hsome ho).idle [] rfl (by simp) rfl Iff.rfl fun _ => rfl

/-- The message at hand goes to the files of the recipients. -/
theorem Key.ReadsBody.acts {g : Globals} {received : List (List UInt8)} {front : List UInt8} {rb : Buffer}
    {dp : DataParser} {os : Os} (h : key.ReadsBody env g received front rb dp os) :
    ∃ (fds : List Nat) (bytes : List UInt8),
      os.trace = key.os.trace ++ (received.map .received ++ fds.map fun fd => .wrote fd bytes) := by
  obtain ⟨fds, -, hos⟩ := writeToFiles_ok h.written
  obtain ⟨bytes, htrace⟩ : ∃ bytes, os.trace = (key.withInput rb g received).os.trace ++
      fds.map fun fd => .wrote fd bytes := ⟨_, congrArg Os.trace hos⟩
  refine ⟨fds, bytes, ?_⟩
  rw [htrace]
  exact List.append_assoc _ _ _

/-- Before the hooks, the files of both states are open. -/
theorem Key.Turn.opens (h : key.Turn env st next key₁) (hsome : st = .dataRead → key.data.rcptList ≠ [])
    (ho : key.Opens (key.HasFiles st)) :
    key₁.Opens (key.HasFiles st ∨ key₁.HasFiles next) := by
  cases h with
  | lost => exact ho.idle [] rfl (by simp [Key.withInput]) rfl (by simp [SmtpState.HasFiles]) fun _ => rfl
  | @listened rb g received p errored reads =>
    have hnone : ∀ command, ¬ st.HasFiles command := fun _ => not_hasFiles_of_reads reads
    exact ho.idle _ rfl rfl (moves_received received) (by simp [hnone]) fun _ => rfl
  | @answered rb g received p errored _ _ reads takes fed done answer =>
    have hnone : ∀ command, ¬ st.HasFiles command := fun _ => not_hasFiles_of_reads reads
    have hasking : (key.asking rb g received p).Opens False :=
      ho.idle _ rfl rfl (moves_received received) (by simp [hnone]) fun _ => rfl
    exact (answer.opens (by exact hsome) hasking).idle [] rfl (by simp) rfl (by simp [hnone]) fun _ => rfl
  | received state reads =>
    obtain ⟨fds, bytes, htrace⟩ := reads.acts
    subst state
    exact ho.idle _ rfl htrace (by simp) (by simp [SmtpState.HasFiles]) fun _ => rfl
  | stored state reads =>
    obtain ⟨fds, bytes, htrace⟩ := reads.acts
    subst state
    exact ho.idle _ rfl htrace (by simp) (by simp [SmtpState.HasFiles]) fun _ => rfl
  | unsent => exact ho.idle _ rfl rfl (moves_sent []) (by simp [SmtpState.HasFiles]) fun _ => rfl
  | sending => exact ho.idle _ rfl rfl (moves_sent [_]) (by simp [Key.withOutput]) fun _ => rfl
  | sent writes prepares taken any sized split rest after =>
    refine ho.idle _ rfl rfl (moves_sent [_]) ?_ fun _ => rfl
    refine or_iff_left_of_imp fun hn => ?_
    have hread := afterReply_interest after
    rcases hn with rfl | rfl | ⟨rfl, -⟩
    · exact Or.inr (Or.inr (afterReply_mailInfoRead after))
    · cases hread
    · cases hread

/-- The state that answers a message goes on to the next one, or the connection is lost. -/
theorem Key.Turn.commits (h : key.Turn env .mailInfoWrite next key₁) :
    next = .mailInfoWrite ∨ next = .mailFromRead ∨ next = .error := by
  cases h with
  | lost reads | listened reads | answered reads => cases reads
  | received state | stored state => cases state
  | unsent => exact Or.inr (Or.inr rfl)
  | sending => exact Or.inl rfl
  | sent _ _ _ _ _ _ _ after =>
    cases after
    exact Or.inr (Or.inl rfl)

theorem arrive_same (next : SmtpState) (key : Key) :
    (key.arrive next).fd = key.fd ∧ (key.arrive next).os = key.os ∧
      (key.arrive next).data.rcptList = key.data.rcptList ∧
      ((key.arrive next).HasFiles next ↔ key.HasFiles next) := by
  unfold Key.arrive
  split_ifs with hr
  · have hnone : ∀ command, ¬ next.HasFiles command := fun _ => not_hasFiles_of_reads hr
    exact ⟨rfl, rfl, rfl, by simp [hnone]⟩
  · exact ⟨rfl, rfl, rfl, Iff.rfl⟩

theorem changeState_same_files (h : changeState env st next key = .ok key') :
    key'.fd = key.fd ∧ (key'.HasFiles next ↔ key.HasFiles next) := by
  rcases changeState_ok h with ⟨-, rfl⟩ | ⟨-, key₁, hleave, rfl⟩
  · exact ⟨rfl, Iff.rfl⟩
  · obtain ⟨hfd, -, -, hhas⟩ := arrive_same next key₁
    rw [hfd, hhas]
    cases hleave <;> exact ⟨rfl, Iff.rfl⟩

/-- The files that are open for a message are closed where its answer is left, and nowhere else. -/
theorem changeState_opens (h : changeState env st next key = .ok key') (hcommit : st = .mailInfoWrite → files)
    (hnext : st = .mailInfoWrite → next ≠ st → ∀ command, ¬ next.HasFiles command)
    (ho : key.Opens (files ∨ key.HasFiles next)) :
    key'.Opens (files ∧ st ≠ .mailInfoWrite ∨ key'.HasFiles next) := by
  rcases changeState_ok h with ⟨rfl, rfl⟩ | ⟨hne, key₁, hleave, rfl⟩
  · refine ho.idle [] rfl (by simp) rfl ?_ fun _ => rfl
    by_cases hst : next = .mailInfoWrite
    · have hf := hcommit hst
      simp [hst, hf, SmtpState.HasFiles]
    · simp [hst]
  · obtain ⟨hfd, hos, hlist, hhas⟩ := arrive_same next key₁
    cases hleave with
    | plain _ hst =>
      exact ho.idle [] hfd (by simp [hos]) rfl (by simp [hhas, hst]) fun _ => hlist
    | body hst =>
      subst hst
      exact ho.idle [] hfd (by simp [hos]) rfl (by simp [hhas]) fun _ => hlist
    | commit hst closed =>
      obtain ⟨fds, hl, hmap, -⟩ := ho
      obtain ⟨htrace, -⟩ := closeFds_acts closed
      have hnone := hnext hst hne
      refine ⟨[], ?_, fun hf => ?_, fun _ => rfl⟩
      · have hall := closing_ledger (hmap (Or.inl (hcommit hst))).1 {key.fd}
        rw [Multiset.add_comm, Multiset.singleton_add] at hall
        rw [hfd, hos]
        show ledger {key.fd} _ = _
        rw [htrace, ledger_append, hl, Option.bind_some, hall]
        rfl
      · rcases hf with ⟨-, hn⟩ | hn
        · exact absurd hst hn
        · exact absurd hn (hnone _)

theorem hasFiles_of_read (h : st.interest = .read) (command : RequestCommand) :
    st.HasFiles command ↔ st = .mailInfoRead := by
  constructor
  · rintro (rfl | rfl | ⟨rfl, -⟩)
    · rfl
    · cases h
    · cases h
  · exact Or.inl

theorem hasFiles_of_write (h : st.interest = .write) (command : RequestCommand) :
    st.HasFiles command ∧ st ≠ .mailInfoWrite ↔ st = .dataWrite ∧ command = .data := by
  constructor
  · rintro ⟨rfl | rfl | hdata, hne⟩
    · cases h
    · exact absurd rfl hne
    · exact hdata
  · rintro ⟨rfl, rfl⟩
    exact ⟨Or.inr (Or.inr ⟨rfl, rfl⟩), by decide⟩

/-- A turn ends the connection with files open exactly if it is lost within a message, or within
the answer to `DATA`. -/
theorem Key.Turn.drops_iff (h : key.Turn env st next key₁) :
    ((next = .error ∨ next = .done) ∧ key.HasFiles st ∧ st ≠ .mailInfoWrite) ↔
      st = .mailInfoRead ∧ key.atHand env = [] ∨
        st = .dataWrite ∧ key.data.requestParser.command = .data ∧ key.taken env = [] := by
  have hreads : st.interest = .read → (((next = .error ∨ next = .done) ∧ key.HasFiles st ∧ st ≠ .mailInfoWrite) ↔
      (next = .error ∨ next = .done) ∧ st = .mailInfoRead) := by
    intro hr
    have hw : st ≠ .mailInfoWrite := by
      rintro rfl
      cases hr
    rw [Key.HasFiles, hasFiles_of_read hr, and_iff_left hw]
  have hwrites : st.interest = .write → (((next = .error ∨ next = .done) ∧ key.HasFiles st ∧
      st ≠ .mailInfoWrite) ↔ (next = .error ∨ next = .done) ∧ st = .dataWrite ∧
        key.data.requestParser.command = .data) := fun hw => and_congr_right fun _ => hasFiles_of_write hw _
  have hread : st.interest = .read → st ≠ .dataWrite := by
    rintro hr rfl
    cases hr
  have hwrite : st.interest = .write → st ≠ .mailInfoRead := by
    rintro hw rfl
    cases hw
  have hrequest : st.readsRequest = true → st ≠ .mailInfoRead := by
    rintro hr rfl
    cases hr
  cases h with
  | lost reads hand =>
    rw [hreads reads]
    simp [hand, hread reads]
  | listened reads takes =>
    have hr := interest_of_reads reads
    simp [hreads hr, hread hr, hrequest reads]
  | answered reads takes =>
    have hr := interest_of_reads reads
    simp [hreads hr, hread hr, hrequest reads]
  | received state reads =>
    have hany := reads.takes.any
    subst state
    simp [hany]
  | stored state reads =>
    have hany := reads.takes.any
    subst state
    simp [hany]
  | @unsent wb writes prepares taken =>
    have htaken : st = .dataWrite → key.taken env = [] := by
      rintro rfl
      rw [prepares.plain rfl] at taken
      exact taken
    rw [hwrites writes]
    simp only [hwrite writes, true_or, true_and, false_and, false_or]
    exact ⟨fun ⟨hst, hc⟩ => ⟨hst, hc, htaken hst⟩, fun ⟨hst, hc, _⟩ => ⟨hst, hc⟩⟩
  | @sending wb wb' sent writes prepares taken any =>
    have hany : st = .dataWrite → key.taken env ≠ [] := by
      rintro rfl
      rw [taken, prepares.plain rfl] at any
      exact any
    have hgo := not_over_of_interest writes (by decide)
    rw [hwrites writes]
    simp only [hgo, hwrite writes, false_and, false_or, false_iff]
    exact fun hn => hany hn.1 hn.2.2
  | @sent wb wb' sent _ writes prepares taken any _ _ _ after =>
    have hany : st = .dataWrite → key.taken env ≠ [] := by
      rintro rfl
      rw [taken, prepares.plain rfl] at any
      exact any
    have hgo := not_over_of_interest (afterReply_interest after) (by decide)
    rw [hwrites writes]
    simp only [hgo, hwrite writes, false_and, false_or, false_iff]
    exact fun hn => hany hn.1 hn.2.2

theorem Key.Turn.fd (h : key.Turn env st next key₁) : key₁.fd = key.fd := by
  cases h with
  | answered reads takes fed done answer =>
    cases answer with
    | served serves =>
      obtain ⟨-, -, hfd, -⟩ := serves.same
      exact hfd
    | _ => rfl
  | _ => rfl

/-- Open files are there until the answer to the message is left, or until the connection is over. -/
theorem Key.Turn.keeps_files (h : key.Turn env st next key₁) (hf : key.HasFiles st) (hst : st ≠ .mailInfoWrite)
    (hgo : ¬ (next = .error ∨ next = .done)) : key₁.HasFiles next := by
  cases h with
  | lost => exact absurd (Or.inl rfl) hgo
  | listened reads | answered reads => exact absurd hf (not_hasFiles_of_reads reads)
  | received => exact Or.inl rfl
  | stored => exact Or.inr (Or.inl rfl)
  | unsent => exact absurd (Or.inl rfl) hgo
  | sending => exact hf
  | sent writes _ _ _ _ _ _ after =>
    obtain ⟨rfl, hc⟩ := (hasFiles_of_write writes _).mp ⟨hf, hst⟩
    cases after.symm.trans (congrArg some (if_pos hc))
    exact Or.inl rfl

/-- What an event leaves open of a connection that it ends, and of one that goes on. -/
theorem Key.Passes.opens (hk : key.Agrees st) (h : key.Passes env st next key₁ key₂ key')
    (hsome : st = .dataRead → key.data.rcptList ≠ []) (ho : key.Opens (key.HasFiles st)) :
    key'.fd = key.fd ∧
      ((next = .error ∨ next = .done) ∧ key'.registered = false ∧
          (∃ fds : List Nat, ledger {key.fd} key'.os.trace = some (fds : Multiset Nat) ∧
            (fds = [] ↔ ¬ (key.HasFiles st ∧ st ≠ .mailInfoWrite))) ∨
        ¬ (next = .error ∨ next = .done) ∧ key'.registered = true ∧ key'.Opens (key'.HasFiles next)) := by
  have hreg := (changeState_turned (h.turn.turned hk h.registered) h.hooks).registered
  obtain ⟨hfd₂, hhas⟩ := changeState_same_files h.hooks
  have hfd : key₂.fd = key.fd := hfd₂.trans h.turn.fd
  have hopens : key₂.Opens (key.HasFiles st ∧ st ≠ .mailInfoWrite ∨ key₂.HasFiles next) := by
    refine changeState_opens h.hooks ?_ ?_ (h.turn.opens hsome ho)
    · rintro rfl
      exact Or.inr (Or.inl rfl)
    · rintro rfl hne command
      have hnext := h.turn.commits
      rcases hnext with rfl | rfl | rfl
      · exact absurd rfl hne
      · simp [SmtpState.HasFiles]
      · simp [SmtpState.HasFiles]
  rcases settle_eq hreg h.settled with ⟨hend, rfl⟩ | ⟨hgo, rfl⟩
  · obtain ⟨fds, hl, hsomeFds, hnil⟩ := hopens
    have hnone := @not_hasFiles_of_over next key₂.data.requestParser.command hend
    refine ⟨hfd, Or.inl ⟨hend, rfl, fds, ?_, ?_⟩⟩
    · have hclose : ledger (key₂.fd ::ₘ (fds : Multiset Nat)) [.closed key₂.fd] = some (fds : Multiset Nat) := by
        show Ledger.balance _ [.free key₂.fd] = _
        rw [Ledger.balance_free (Multiset.mem_cons_self _ _), Multiset.erase_cons_head, Ledger.balance_nil]
      rw [← hfd]
      show ledger _ (key₂.os.trace ++ [.closed key₂.fd]) = _
      rw [ledger_append, hl, Option.bind_some, hclose]
    · constructor
      · intro he hf
        exact (hsomeFds (Or.inl hf)).2 he
      · intro hf
        exact hnil fun hn => hn.elim hf hnone
  · refine ⟨hfd, Or.inr ⟨hgo, hreg, hopens.idle [] rfl (by simp) rfl ?_ fun _ => rfl⟩⟩
    refine (or_iff_right_of_imp fun hf => ?_).symm
    exact hhas.mpr (h.turn.keeps_files hf.1 hf.2 hgo)

end Turns

/-- The connection is lost in the middle of a message, or of the answer to `DATA`: nothing can be
received, or nothing can be sent. -/
def Key.DropsFiles (key : Key) : Event → Prop
  | .ready op env => key.Heeds op ∧ (key.state = .mailInfoRead ∧ key.atHand env = [] ∨
      key.state = .dataWrite ∧ key.data.requestParser.command = .data ∧ key.taken env = [])
  | .elsewhere .. => False

instance (key : Key) : DecidablePred key.DropsFiles
  | .ready op _ => inferInstanceAs (Decidable (key.Heeds op ∧ (_ ∨ _)))
  | .elsewhere .. => isFalse id

section Runs

variable {key key' : Key} {ev : Event} {es : List Event}

/-- What is open of a connection that is registered, and of one that is not any more. -/
structure Key.Accounted (client : Nat) (clean : Prop) (key : Key) : Prop where
  fd : key.fd = client
  live : key.registered = true → clean ∧ key.Opens (key.HasFiles key.state)
  ended : key.registered = false → ∃ fds : List Nat, ledger {client} key.os.trace = some (fds : Multiset Nat) ∧
    (fds = [] ↔ clean)

theorem sessionStep_accounted {client : Nat} {clean : Prop} (hk : key.Agrees key.state)
    (hsome : key.state = .dataRead → key.data.rcptList ≠ []) (ha : key.Accounted client clean)
    (h : sessionStep key ev = .ok key') : key'.Accounted client (clean ∧ ¬ key.DropsFiles ev) := by
  rcases sessionStep_turn hk.sound hk.output h with
    ⟨op, env, rfl, hidle, rfl⟩ | ⟨globals, tree, fds, rfl, rfl⟩ | ⟨op, env, next, key₁, key₂, rfl, hheeds, hp⟩
  · have hno : ¬ key'.DropsFiles (.ready op env) := fun hd => hidle hd.1
    rwa [and_iff_left hno]
  · have hno : ¬ key.DropsFiles (.elsewhere globals tree fds) := id
    rw [and_iff_left hno]
    exact ⟨ha.fd, ha.live, ha.ended⟩
  · obtain ⟨hclean, hopens⟩ := ha.live hp.registered
    have hdrops := hp.turn.drops_iff
    have hnext : key'.state = next := settle_state hp.settled
    obtain ⟨hfd, ⟨hend, hreg, fds, hl, hnil⟩ | ⟨hgo, hreg, hopens'⟩⟩ := hp.opens hk hsome hopens
    · refine ⟨hfd.trans ha.fd, fun hr => absurd hr (by simp [hreg]), fun _ => ⟨fds, ha.fd ▸ hl, ?_⟩⟩
      rw [hnil, and_iff_right hclean, Key.DropsFiles, and_iff_right hheeds, ← hdrops, and_iff_right hend]
    · have hno : ¬ key.DropsFiles (.ready op env) := fun hd => hgo (hdrops.mpr hd.2).1
      refine ⟨hfd.trans ha.fd, fun _ => ⟨⟨hclean, hno⟩, hnext.symm ▸ hopens'⟩, fun hr => ?_⟩
      rw [hreg] at hr
      cases hr

/-- When a connection is over, every descriptor that was opened for it, its own among them, has
been closed as often as it was opened, and none that was not open, exactly if the connection was
not lost within a message nor within the answer to `DATA`. -/
theorem descriptors_balanced_iff (ha : Accepted key) (h : run sessionStep key es = .ok key')
    (hover : key'.registered = false) :
    ledger {key.fd} key'.os.trace = some 0 ↔ Meets sessionStep (fun key ev => ¬ key.DropsFiles ev) key es := by
  have hrun : key'.Accounted key.fd (Meets sessionStep (fun key ev => ¬ key.DropsFiles ev) key es) := by
    refine accepted_invariant (I := fun es key' =>
      key'.Accounted key.fd (Meets sessionStep (fun key ev => ¬ key.DropsFiles ev) key es)) ha ?_ ?_ h
    · intro client st g os hw
      have hnone : ¬ key.HasFiles key.state := by
        rw [hw.fresh.sound.machine.state_eq]
        rcases hw.fresh.state with rfl | rfl <;> simp [SmtpState.HasFiles]
      refine ⟨rfl, fun _ => ⟨meets_nil _ _, [], ?_, fun hf => absurd hf hnone, fun _ => rfl⟩, fun hr => ?_⟩
      · rw [hw.fresh.trace]
        rfl
      · rw [hw.registered] at hr
        cases hr
    · intro xs ev key₁ key₂ hxs hk hacc hstep
      rw [meets_concat hxs]
      exact sessionStep_accounted hk (fun hst => (data_in_order ha hxs).2 (Or.inl hst)) hacc hstep
  obtain ⟨fds, hl, hnil⟩ := hrun.ended hover
  rw [hl, ← hnil]
  simp

/-- A message that ends with the connection. -/
def quitAfterMail : List Event := script (twoRcpts ++ [ascii "QUIT\r\n"])

theorem descriptors_balanced_iff_twoRcpts :
    ∃ key', run sessionStep firstKey quitAfterMail = .ok key' ∧ key'.registered = false ∧
      (ledger {firstKey.fd} key'.os.trace = some 0 ↔
        Meets sessionStep (fun key ev => ¬ key.DropsFiles ev) firstKey quitAfterMail) := by
  have hfound : ((run sessionStep firstKey quitAfterMail).toOption.any fun key =>
      decide (key.registered = false)) = true := by
    decide +kernel
  obtain ⟨key', h, hover⟩ := ok_of_any hfound
  exact ⟨key', h, hover, descriptors_balanced_iff accepted_first h hover⟩

/-- A client that goes away when it has been asked for its message. -/
def goneAfterData : List Event := script oneMail ++ [.ready .read (readyEnv [])]

theorem descriptors_leak_goneAfterData :
    Accepted firstKey ∧ ∃ key', run sessionStep firstKey goneAfterData = .ok key' ∧
      key'.registered = false ∧ ledger {firstKey.fd} key'.os.trace ≠ some 0 := by
  have hfound : ((run sessionStep firstKey goneAfterData).toOption.any fun key =>
      decide (key.registered = false ∧ ledger {firstKey.fd} key.os.trace ≠ some 0)) = true := by
    decide +kernel
  exact ⟨accepted_first, ok_of_any hfound⟩

end Runs

end Smtpd
