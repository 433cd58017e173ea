import Smtpd.InterestAgreement

namespace Smtpd

open Checked

/-- Of the shared variables only the count of received bytes is changed. -/
def Globals.Counts (g g' : Globals) : Prop := g' = { g with transferredBytes := g'.transferredBytes }

theorem Globals.Counts.refl (g : Globals) : g.Counts g := rfl

theorem Globals.Counts.trans {g g₁ g₂ : Globals} (h : g.Counts g₁) (h₁ : g₁.Counts g₂) : g.Counts g₂ := by
  unfold Globals.Counts at h h₁
  rw [h] at h₁
  exact h₁

theorem Globals.Counts.of_eq {g g' : Globals} (h : g' = g) : g.Counts g' := h ▸ .refl g'

section Callbacks

variable {env : Env} {key key' : Key} {st next r : SmtpState} {text : List UInt8} {n : Nat}

theorem reply_globals (h : reply key st text n = .ok key') : key'.globals = key.globals := by
  obtain ⟨wb, rfl⟩ := reply_ok h
  rfl

theorem putString_globals (h : putString key text n = .ok key') : key'.globals = key.globals := by
  obtain ⟨wb, rfl⟩ := putString_ok h
  rfl

theorem writeStatus_globals (h : writeStatus env key st next = .ok (r, key')) : key'.globals = key.globals := by
  obtain ⟨wb, i, sent, rfl, -⟩ := writeStatus_ok h
  rfl

theorem quitReply_globals (h : quitReply env key st = .ok (r, key')) : key'.globals = key.globals := by
  obtain ⟨-, wb, i, sent, rfl⟩ := quitReply_ok h
  rfl

/-- A reply with nothing else to it. -/
theorem replied_globals (h : (reply key st text n >>= fun key => .ok (next, key)) = .ok (r, key')) :
    key'.globals = key.globals := by
  obtain ⟨key₁, hreply, h⟩ := bind_ok h
  cases h
  exact reply_globals hreply

theorem acceptRcpt_globals (h : acceptRcpt env key st = .ok (r, key')) : key'.globals = key.globals := by
  obtain ⟨rcptList, -, h⟩ := bind_ok h
  obtain ⟨email, -, h⟩ := bind_ok h
  exact (replied_globals h).trans rfl

theorem failedConnectionAnswer_globals (h : failedConnectionAnswer env key = .ok (r, key')) :
    key'.globals = key.globals := by
  unfold failedConnectionAnswer at h
  split at h
  · exact quitReply_globals h
  · cases h
    rfl

theorem ehloAnswer_globals (h : ehloAnswer env key = .ok (r, key')) : key'.globals = key.globals := by
  unfold ehloAnswer at h
  split at h
  · exact replied_globals h
  · exact replied_globals h
  · exact quitReply_globals h
  · exact replied_globals h

theorem mailFromAnswer_globals (h : mailFromAnswer env key = .ok (r, key')) : key'.globals = key.globals := by
  unfold mailFromAnswer at h
  split at h
  · obtain ⟨⟨sender, key₁⟩, hcopy, h⟩ := bind_ok h
    obtain ⟨mailfrom, rfl⟩ := copyMailfrom_ok hcopy
    exact (replied_globals h).trans rfl
  · exact quitReply_globals h
  · exact replied_globals h
  · exact replied_globals h

theorem rcptToAnswer_globals (h : rcptToAnswer env key = .ok (r, key')) : key'.globals = key.globals := by
  unfold rcptToAnswer at h
  split at h
  · obtain ⟨known, -, h⟩ := bind_ok h
    cases known with
    | true => exact acceptRcpt_globals h
    | false => exact replied_globals h
  · exact quitReply_globals h
  · exact replied_globals h
  · exact replied_globals h

theorem dataAnswer_globals (h : dataAnswer env key = .ok (r, key')) : key'.globals = key.globals := by
  unfold dataAnswer at h
  split at h
  · obtain ⟨key₁, hreply, h⟩ := bind_ok h
    obtain ⟨⟨rcptList, os⟩, -, h⟩ := bind_ok h
    cases h
    show key₁.globals = key.globals
    exact reply_globals hreply
  · exact quitReply_globals h
  · exact acceptRcpt_globals h
  · exact replied_globals h

theorem selectorSetInterestKey_globals {ok : Bool} {i : Interest} (h : selectorSetInterestKey key i = (ok, key')) :
    key'.globals = key.globals := by
  unfold selectorSetInterestKey at h
  split at h <;> cases h <;> rfl

theorem requestProcess_globals {answer : Env → Key → Result (SmtpState × Key)}
    (hanswer : ∀ {key key'}, answer env key = .ok (r, key') → key'.globals = key.globals)
    (h : requestProcess env key st answer = .ok (r, key')) : key'.globals = key.globals := by
  obtain ⟨⟨rb, p, errored⟩, -, h⟩ := bind_ok h
  dsimp only at h
  split at h
  · split at h
    next key₁ hset => exact (hanswer h).trans ((selectorSetInterestKey_globals hset).trans rfl)
    next key₁ hset =>
      cases h
      exact (selectorSetInterestKey_globals hset).trans rfl
  · cases h
    rfl

theorem mailInfoReadProcess_globals (h : mailInfoReadProcess env key = .ok (r, key')) :
    key'.globals = key.globals := by
  obtain ⟨⟨rb, dp⟩, -, h⟩ := bind_ok h
  obtain ⟨os, -, h⟩ := bind_ok h
  dsimp only at h
  split at h
  · split at h
    next key₁ hset =>
      have hsame : key₁.globals = key.globals := (selectorSetInterestKey_globals hset).trans rfl
      split at h
      all_goals
        obtain ⟨key₂, hput, h⟩ := bind_ok h
        cases h
        exact (putString_globals hput).trans hsame
    next key₁ hset =>
      cases h
      exact (selectorSetInterestKey_globals hset).trans rfl
  · cases h
    rfl

/-- Reading counts the bytes received. -/
theorem readStatus_counts {process : Env → Key → Result (SmtpState × Key)}
    (hprocess : ∀ {key key'}, process env key = .ok (r, key') → key'.globals = key.globals)
    (h : readStatus env key process = .ok (r, key')) : key.globals.Counts key'.globals := by
  unfold readStatus at h
  dsimp only at h
  split at h
  · exact .of_eq (hprocess h)
  · obtain ⟨⟨ptr, count⟩, -, h⟩ := bind_ok h
    cases hr : env.recv with
    | none =>
      rw [hr] at h
      cases h
      rfl
    | some bytes =>
      rw [hr] at h
      dsimp only at h
      split at h
      · obtain ⟨rb₁, -, h⟩ := bind_ok h
        obtain ⟨rb, -, h⟩ := bind_ok h
        have hcounted : key.globals.Counts (addTransferred key (bytes.take count).length).globals := rfl
        exact hcounted.trans (.of_eq ((hprocess h).trans rfl))
      · cases h
        rfl

theorem onRead_counts {f : Env → Key → Result (SmtpState × Key)} (hf : st.onRead = some f)
    (h : f env key = .ok (next, key')) : key.globals.Counts key'.globals := by
  cases st with
  | failedConnectionRead =>
    cases hf
    exact readStatus_counts (requestProcess_globals failedConnectionAnswer_globals) h
  | ehloRead =>
    cases hf
    exact readStatus_counts (requestProcess_globals ehloAnswer_globals) h
  | mailFromRead =>
    cases hf
    exact readStatus_counts (requestProcess_globals mailFromAnswer_globals) h
  | rcptToRead =>
    cases hf
    exact readStatus_counts (requestProcess_globals rcptToAnswer_globals) h
  | dataRead =>
    cases hf
    exact readStatus_counts (requestProcess_globals dataAnswer_globals) h
  | mailInfoRead =>
    cases hf
    exact readStatus_counts mailInfoReadProcess_globals h
  | _ => cases hf

theorem greeting_globals (h : (copyToWriteBuffer key text >>= fun key => writeStatus env key st next) = .ok (r, key')) :
    key'.globals = key.globals := by
  obtain ⟨key₁, hcopy, h⟩ := bind_ok h
  obtain ⟨wb, rfl⟩ := copyToWriteBuffer_ok hcopy
  exact (writeStatus_globals h).trans rfl

theorem onWrite_globals {f : Env → Key → Result (SmtpState × Key)} (hf : st.onWrite = some f)
    (h : f env key = .ok (next, key')) : key'.globals = key.globals := by
  cases st with
  | greetingWrite | failedConnectionWrite =>
    cases hf
    exact greeting_globals h
  | ehloWrite =>
    cases hf
    unfold ehloWrite at h
    split at h <;> exact writeStatus_globals h
  | mailFromWrite =>
    cases hf
    unfold mailFromWrite at h
    split at h <;> exact writeStatus_globals h
  | rcptToWrite =>
    cases hf
    unfold rcptToWrite at h
    split at h
    · obtain ⟨known, -, h⟩ := bind_ok h
      cases known <;> exact writeStatus_globals h
    · exact writeStatus_globals h
  | dataWrite =>
    cases hf
    unfold dataWrite at h
    split at h <;> exact writeStatus_globals h
  | mailInfoWrite =>
    cases hf
    exact writeStatus_globals h
  | _ => cases hf

/-- Leaving the answer to a message counts the message. -/
theorem changeState_globals (h : changeState env st next key = .ok key') :
    key'.globals = { key.globals with
      mailsSent := key.globals.mailsSent + if st = .mailInfoWrite ∧ next ≠ .mailInfoWrite then 1 else 0 } := by
  rcases changeState_ok h with ⟨rfl, rfl⟩ | ⟨hne, key₁, hleave, rfl⟩
  · have hnot : ¬ (next = .mailInfoWrite ∧ next ≠ .mailInfoWrite) := fun hn => hn.2 hn.1
    rw [if_neg hnot, Int.add_zero]
  · obtain ⟨parser, log, harrive⟩ := arrive_frame key₁ next
    rw [harrive]
    cases hleave with
    | plain body commit =>
      have hnot : ¬ (st = .mailInfoWrite ∧ next ≠ .mailInfoWrite) := fun hn => commit hn.1
      rw [if_neg hnot, Int.add_zero]
    | body state =>
      have hnot : ¬ (st = .mailInfoWrite ∧ next ≠ .mailInfoWrite) := by
        rw [state]
        rintro ⟨hn, -⟩
        cases hn
      rw [if_neg hnot, Int.add_zero]
    | commit state =>
      subst state
      have hleft : SmtpState.mailInfoWrite = .mailInfoWrite ∧ next ≠ .mailInfoWrite := ⟨rfl, hne⟩
      rw [if_pos hleft]

end Callbacks

/-- What an event of a connection does to the shared variables. -/
structure Key.Tallies (key key' : Key) : Prop where
  registered : key'.registered = true → key.registered = true
  users : key'.globals.currentUsers =
    key.globals.currentUsers - if key.registered = true ∧ key'.registered = false then 1 else 0
  mails : key'.globals.mailsSent =
    key.globals.mailsSent + if key.state = .mailInfoWrite ∧ key'.state ≠ .mailInfoWrite then 1 else 0
  limit : key'.globals.maxUser = key.globals.maxUser
  status : key'.globals.transformations = key.globals.transformations

section Steps

variable {env : Env} {key key₁ key₂ key' : Key} {next : SmtpState} {op : Ready}

theorem tallies_handled (hcounts : key.globals.Counts key₁.globals) (hreg : key.registered = true)
    (hreg₂ : key₂.registered = true) (hhooks : changeState env key.state next key₁ = .ok key₂)
    (hsettled : settle key.data.stm next key₂ = .ok key') : key.Tallies key' := by
  have hstate : key'.state = next := settle_state hsettled
  have hglobals := changeState_globals hhooks
  unfold Globals.Counts at hcounts
  rw [hcounts] at hglobals
  rcases settle_eq hreg₂ hsettled with ⟨-, rfl⟩ | ⟨-, rfl⟩
  · refine ⟨fun _ => hreg, ?_, ?_, ?_, ?_⟩
    · simp [hreg, hglobals]
    · rw [hstate]
      simp [hglobals]
    · simp [hglobals]
    · simp [hglobals]
  · refine ⟨fun _ => hreg, ?_, ?_, ?_, ?_⟩
    · simp [hreg₂, hglobals]
    · rw [hstate]
      simp [hglobals]
    · simp [hglobals]
    · simp [hglobals]

theorem sessionStep_tallies (hk : key.Agrees key.state) (h : sessionStep key (.ready op env) = .ok key') :
    key.Tallies key' := by
  rcases sessionStep_cases hk.sound.machine h with
    ⟨rfl, -⟩ | ⟨globals, tree, fds, he, -⟩ | ⟨env, next, key₁, key₂, -, -, hh⟩ | ⟨env, next, key₁, key₂, -, hh⟩
  · exact ⟨id, by simp, by simp, rfl, rfl⟩
  · cases he
  · obtain ⟨f, hf, hcall⟩ := hh.callback
    have hturned := (onRead_turn hk.sound hk.output hh.registered hf hcall).turned hk hh.registered
    exact tallies_handled (onRead_counts hf hcall) hh.registered (changeState_turned hturned hh.hooks).registered
      hh.hooks hh.settled
  · obtain ⟨f, hf, hcall⟩ := hh.callback
    have hturned := (onWrite_turn hk.output hh.registered hf hcall).turned hk hh.registered
    exact tallies_handled (.of_eq (onWrite_globals hf hcall)) hh.registered
      (changeState_turned hturned hh.hooks).registered hh.hooks hh.settled

end Steps

end Smtpd
