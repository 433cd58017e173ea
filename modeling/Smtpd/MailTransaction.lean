import Smtpd.Descriptors
import Smtpd.DataDetection
import Smtpd.BodyDelivery

namespace Smtpd

open Checked CString Ledger Runs

/-- No file is created or moved, and the recipients that have files keep them. -/
structure Key.KeepsFiles (key : Key) (files : Prop) (key' : Key) (files' : Prop) : Prop where
  trace : ∃ acts, key'.os.trace = key.os.trace ++ acts ∧ filings acts = []
  files : files' → files ∧ key'.data.rcptList = key.data.rcptList
  names : ∀ node ∈ key'.data.rcptList, node ∈ key.data.rcptList ∨ node.Short

/-- `create_mails_files` makes the files of the recipients for an answer to `DATA`, by the acts `made`. -/
structure Key.MakesFiles (key : Key) (before made : List Act) (key' : Key) : Prop where
  command : key'.data.requestParser.command = .data
  created : ∃ env os program os', createMailsFiles env os key.data.rcptList key.data.mailfrom program
      key.data.transformation = .ok (key'.data.rcptList, os') ∧
    os.trace = key.os.trace ++ before ∧ os'.trace = os.trace ++ made ∧ key'.os.trace = os'.trace
  idle : filings before = []
  makes : Made made key'.data.rcptList

/-- `close_fds` closes and moves the files of the recipients, of which none is left. -/
def Key.MovesFiles (key key' : Key) : Prop :=
  key'.data.rcptList = [] ∧ ∃ sent last, filings sent = [] ∧ filings last = [] ∧
    key'.os.trace = key.os.trace ++ (sent ++ key.data.rcptList.flatMap RcptNode.closing ++ last)

section Turns

variable {env : Env} {key key₁ key₂ key' : Key} {st next : SmtpState} {has has' : Prop}

theorem Key.KeepsFiles.same (acts : List Act) (htrace : key'.os.trace = key.os.trace ++ acts)
    (hfilings : filings acts = []) (hlist : key'.data.rcptList = key.data.rcptList) (hhas : has' → has) :
    key.KeepsFiles has key' has' := by
  refine ⟨⟨acts, htrace, hfilings⟩, fun hf => ⟨hhas hf, hlist⟩, fun node hn => Or.inl ?_⟩
  rw [← hlist]
  exact hn

theorem Key.MakesFiles.trace {before made : List Act} (h : key.MakesFiles before made key') :
    key'.os.trace = key.os.trace ++ (before ++ made) := by
  obtain ⟨env, os, program, os', -, hbefore, hmade, hsame⟩ := h.created
  rw [hsame, hmade, hbefore, List.append_assoc]

theorem Key.MakesFiles.emails {before made : List Act} (h : key.MakesFiles before made key') :
    key'.data.rcptList.map RcptNode.email = key.data.rcptList.map RcptNode.email := by
  obtain ⟨env, os, program, os', hcreated, -⟩ := h.created
  exact createMailsFiles_emails hcreated

theorem Key.MakesFiles.renames {before made : List Act} (h : key.MakesFiles before made key') :
    renames key'.os.trace = renames key.os.trace := by
  rw [h.trace, renames_append, renames_append, renames_idle h.idle, renames_creates h.makes.creates,
    List.append_nil, List.append_nil]

/-- What is done before and after it, other than with files, does not matter. -/
theorem Key.MakesFiles.within {acts before made : List Act} {first last : Key} (h : key.MakesFiles before made key')
    (htrace : key.os.trace = first.os.trace ++ acts) (hidle : filings acts = [])
    (hsame : key.data.rcptList = first.data.rcptList ∧ key.data.mailfrom = first.data.mailfrom ∧
      key.data.transformation = first.data.transformation)
    (hlast : last.os.trace = key'.os.trace ∧ last.data.rcptList = key'.data.rcptList ∧
      last.data.requestParser.command = .data) : first.MakesFiles (acts ++ before) made last := by
  obtain ⟨hlist, hmail, htransformation⟩ := hsame
  obtain ⟨hos, hlist', hcommand⟩ := hlast
  obtain ⟨env, os, program, os', hcreated, hbefore, hmade, hend⟩ := h.created
  rw [hlist, hmail, htransformation] at hcreated
  refine ⟨hcommand, ⟨env, os, program, os', ?_, ?_, hmade, hos.trans hend⟩, ?_, ?_⟩
  · rw [hlist']
    exact hcreated
  · rw [hbefore, htrace, List.append_assoc]
  · rw [filings_append, hidle, h.idle]
    rfl
  · rw [hlist']
    exact h.makes

theorem addRcptToList_short {arg email : List UInt8} {head list : List RcptNode} (hemail : cstring arg = some email)
    (h : addRcptToList env head arg = .ok list) : ∀ node ∈ list, node ∈ head ∨ node.Short := by
  obtain ⟨node, rfl, hnode⟩ := addRcptToList_ok hemail h
  intro n hn
  rcases List.mem_cons.mp hn with rfl | hn
  · refine Or.inr fun address haddress => ?_
    rw [hnode] at haddress
    have hlen := List.length_take_le (maxEmailLength - 1) email
    have hmax : maxEmailLength = 40 := rfl
    obtain rfl := Option.some.inj haddress
    omega
  · exact Or.inl hn

/-- An answer to a command makes files only for `DATA`. -/
theorem Key.Serves.files {text : List UInt8} {more : List Entry} (h : key.Serves env st text next more key₁) :
    key.KeepsFiles False key₁ (key₁.HasFiles next) ∨
      st = .dataRead ∧ next = .dataWrite ∧ ∃ made, key.MakesFiles [] made key₁ := by
  cases h with
  | greeted => exact Or.inl (.same [] (by simp) rfl rfl (by simp [SmtpState.HasFiles]))
  | refused _ refusal => exact Or.inl (.same [] (by simp) rfl rfl (not_hasFiles_of_refusal refusal))
  | sender mail copied =>
    obtain ⟨mailfrom, rfl⟩ := copyMailfrom_ok copied
    exact Or.inl (.same [] (by simp) rfl rfl (by simp [SmtpState.HasFiles]))
  | recipient rcpt takes added given =>
    refine Or.inl ⟨⟨[], by simp, rfl⟩, ?_, addRcptToList_short given added⟩
    intro hf
    simp [SmtpState.HasFiles] at hf
  | data data created =>
    obtain ⟨acts, htrace, hmade⟩ := createMailsFiles_acts created
    have hcreated : ∃ env os program os', createMailsFiles env os key.data.rcptList key.data.mailfrom program
        key.data.transformation = .ok (_, os') ∧ os.trace = key.os.trace ++ [] ∧ os'.trace = os.trace ++ acts ∧
          _ = os'.trace := ⟨env, key.os, _, _, created, by simp, htrace, rfl⟩
    exact Or.inr ⟨rfl, rfl, acts, data, hcreated, rfl, hmade⟩

/-- What a turn does to the files, before the hooks. -/
theorem Key.Turn.files (h : key.Turn env st next key₁) :
    key.KeepsFiles (key.HasFiles st) key₁ (key₁.HasFiles next) ∨
      st = .dataRead ∧ next = .dataWrite ∧ ∃ before made, key.MakesFiles before made key₁ := by
  cases h with
  | lost => exact Or.inl (.same [] (by simp [Key.withInput]) rfl rfl (by simp [SmtpState.HasFiles]))
  | @listened rb g received p errored reads =>
    have hnone : ∀ command, ¬ st.HasFiles command := fun _ => not_hasFiles_of_reads reads
    exact Or.inl (.same _ rfl (filings_received received) rfl fun hf => absurd hf (hnone _))
  | @answered rb g received p errored _ _ reads takes fed done answer =>
    cases answer with
    | @quit wb i sent =>
      refine Or.inl (.same (received.map .received ++ sent.map .sent) ?_ (by simp) rfl (by simp [SmtpState.HasFiles]))
      exact List.append_assoc _ _ _
    | turnedAway =>
      exact Or.inl (.same _ rfl (filings_received received) rfl (by simp [SmtpState.HasFiles]))
    | served serves =>
      rcases serves.files with hkept | ⟨hst, hnext, made, hmakes⟩
      · obtain ⟨acts, htrace, hnone⟩ := hkept.trace
        refine Or.inl ⟨⟨received.map .received ++ acts, ?_, by simp [hnone]⟩, fun hf => (hkept.files hf).1.elim,
          hkept.names⟩
        rw [← List.append_assoc]
        exact htrace
      · exact Or.inr ⟨hst, hnext, _, made, hmakes.within rfl (filings_received received) ⟨rfl, rfl, rfl⟩
          ⟨rfl, rfl, hmakes.command⟩⟩
  | received state reads =>
    obtain ⟨fds, bytes, htrace⟩ := reads.acts
    exact Or.inl (.same _ htrace (by simp) rfl fun _ => Or.inl state)
  | stored state reads =>
    obtain ⟨fds, bytes, htrace⟩ := reads.acts
    exact Or.inl (.same _ htrace (by simp) rfl fun _ => Or.inl state)
  | unsent => exact Or.inl (.same _ rfl (filings_sent []) rfl (by simp [SmtpState.HasFiles]))
  | sending => exact Or.inl (.same _ rfl (filings_sent [_]) rfl id)
  | sent writes prepares taken any sized split rest after =>
    refine Or.inl (.same _ rfl (filings_sent [_]) rfl fun hn => ?_)
    have hread := afterReply_interest after
    rcases hn with rfl | rfl | ⟨rfl, -⟩
    · exact Or.inr (Or.inr (afterReply_mailInfoRead after))
    · cases hread
    · cases hread

/-- The answer to a message is sent, or nothing can be sent. -/
theorem Key.Turn.answersMessage (h : key.Turn env .mailInfoWrite next key₁) :
    key₁.data.rcptList = key.data.rcptList ∧
      ∃ sent : List (List UInt8), key₁.os.trace = key.os.trace ++ sent.map .sent := by
  cases h with
  | lost reads | listened reads | answered reads => cases reads
  | received state | stored state => cases state
  | unsent => exact ⟨rfl, [], rfl⟩
  | sending | sent => exact ⟨rfl, [_], rfl⟩

theorem changeState_moves_files (hne : next ≠ .mailInfoWrite)
    (h : changeState env .mailInfoWrite next key = .ok key') :
    key'.data.rcptList = [] ∧ key'.os.trace = key.os.trace ++ key.data.rcptList.flatMap RcptNode.closing := by
  rcases changeState_ok h with ⟨hsame, -⟩ | ⟨-, key₃, hleave, rfl⟩
  · exact absurd hsame hne
  · obtain ⟨parser, log, harrive⟩ := arrive_frame key₃ next
    rw [harrive]
    cases hleave with
    | plain _ commit => exact absurd rfl commit
    | body state => cases state
    | commit _ closed => exact ⟨rfl, (closeFds_acts closed).1⟩

/-- The end of a connection closes its descriptor. -/
theorem settle_trace {stm : StateMachine} (hreg : key.registered = true) (h : settle stm next key = .ok key') :
    ∃ last : List Act, filings last = [] ∧ key'.os.trace = key.os.trace ++ last := by
  rcases settle_eq hreg h with ⟨-, rfl⟩ | ⟨-, rfl⟩
  · exact ⟨[.closed key.fd], rfl, rfl⟩
  · exact ⟨[], rfl, (List.append_nil _).symm⟩

/-- What an event does to the files of a connection: `DATA` makes them, and the end of the answer to
the message moves them. -/
theorem sessionStep_files {ev : Event} (hk : key.Agrees key.state) (h : sessionStep key ev = .ok key') :
    key.KeepsFiles (key.HasFiles key.state) key' (key'.HasFiles key'.state) ∧
        (key.state = .mailInfoWrite → key'.state = .mailInfoWrite) ∨
      key.state = .dataRead ∧ key'.state = .dataWrite ∧ (∃ before made, key.MakesFiles before made key') ∨
      key.state = .mailInfoWrite ∧ (key'.state = .mailFromRead ∨ key'.state = .error) ∧ key.MovesFiles key' := by
  rcases sessionStep_turn hk.sound hk.output h with
    ⟨op, env, -, -, rfl⟩ | ⟨globals, tree, fds, -, rfl⟩ | ⟨op, env, next, key₁, key₂, -, -, hp⟩
  · exact Or.inl ⟨.same [] (List.append_nil _).symm rfl rfl id, id⟩
  · exact Or.inl ⟨.same [] (List.append_nil _).symm rfl rfl id, id⟩
  · have hstate : key'.state = next := settle_state hp.settled
    have hreg := (changeState_turned (hp.turn.turned hk hp.registered) hp.hooks).registered
    obtain ⟨last, hover, hend⟩ := settle_trace hreg hp.settled
    obtain ⟨hdata, -⟩ := settle_ok hp.settled
    have hlist' : key'.data.rcptList = key₂.data.rcptList := by rw [hdata]
    have hhas : key'.HasFiles key'.state ↔ key₁.HasFiles next := by
      rw [hstate, ← (changeState_same_files hp.hooks).2, Key.HasFiles, hdata]
    by_cases hst : key.state = .mailInfoWrite → next = .mailInfoWrite
    · obtain ⟨hos, hlist⟩ := changeState_keeps_files hst hp.hooks
      rcases hp.turn.files with hkept | ⟨hread, hwrite, before, made, hmakes⟩
      · obtain ⟨acts, htrace, hnone⟩ := hkept.trace
        refine Or.inl ⟨⟨⟨acts ++ last, ?_, by simp [hnone, hover]⟩, fun hf => ?_, ?_⟩, fun he => hstate.trans (hst he)⟩
        · rw [hend, hos, htrace, List.append_assoc]
        · rw [hlist', hlist]
          exact hkept.files (hhas.mp hf)
        · rw [hlist', hlist]
          exact hkept.names
      · subst hwrite
        obtain ⟨-, -, hplain⟩ := settle_ok hp.settled
        have hkey := hplain (by decide) (by decide)
        have hfiles : key'.HasFiles key'.state := hhas.mpr (Or.inr (Or.inr ⟨rfl, hmakes.command⟩))
        rw [Key.HasFiles, hstate] at hfiles
        have hcommand : key'.data.requestParser.command = .data := by simpa [SmtpState.HasFiles] using hfiles
        have hend : key'.os = key₁.os := by
          rw [hkey]
          exact hos
        exact Or.inr (Or.inl ⟨hread, hstate, [] ++ before, made, hmakes.within (by simp) rfl ⟨rfl, rfl, rfl⟩
          ⟨congrArg Os.trace hend, hlist'.trans hlist, hcommand⟩⟩)
    · obtain ⟨hst, hnext⟩ := Classical.not_imp.mp hst
      have hturn := hp.turn
      have hhooks := hp.hooks
      rw [hst] at hturn hhooks
      obtain ⟨hlist, sent, hsent⟩ := hturn.answersMessage
      obtain ⟨hempty, hmoved⟩ := changeState_moves_files hnext hhooks
      refine Or.inr (Or.inr ⟨hst, hstate ▸ hturn.commits.resolve_left hnext, hlist'.trans hempty, sent.map .sent, last,
        filings_sent sent, hover, ?_⟩)
      rw [hend, hmoved, hsent, hlist]
      simp only [List.append_assoc]

end Turns

section Filed

variable {key key' : Key} {ev : Event} {es : List Event}

theorem moves_files_trace (h : key.MovesFiles key') :
    ∃ acts, key'.os.trace = key.os.trace ++ acts ∧
      filings acts = key.data.rcptList.map (fun node => .free node.tmpPath) ∧
      renames acts = key.data.rcptList.map fun node => (node.tmpPath, node.newPath) := by
  obtain ⟨-, sent, last, hsent, hover, htrace⟩ := h
  refine ⟨_, htrace, ?_, ?_⟩
  · rw [filings_append, filings_append, hsent, hover, filings_closing, List.append_nil, List.nil_append]
  · rw [renames_append, renames_append, renames_idle hsent, renames_idle hover, renames_closing, List.append_nil,
      List.nil_append]

/-- Every file was created for a recipient, and those of the recipients that have files wait to be moved. -/
structure Key.Filed (key : Key) : Prop where
  names : ∀ node ∈ key.data.rcptList, node.Short
  unmoved : ∃ left, unmoved 0 key.os.trace = some left ∧
    (key.HasFiles key.state → ((key.data.rcptList.map RcptNode.tmpPath : List (List UInt8)) : Multiset (List UInt8)) ≤ left)

theorem short_of_emails {nodes nodes' : List RcptNode} (h : nodes'.map RcptNode.email = nodes.map RcptNode.email)
    (hshort : ∀ node ∈ nodes, node.Short) : ∀ node ∈ nodes', node.Short := by
  intro node hn
  have hmem : node.email ∈ nodes.map RcptNode.email := h ▸ List.mem_map_of_mem hn
  obtain ⟨old, hold, he⟩ := List.mem_map.mp hmem
  intro email hemail
  exact hshort old hold email (he.symm ▸ hemail)

theorem sessionStep_filed (hk : key.Agrees key.state) (hf : key.Filed) (h : sessionStep key ev = .ok key') :
    key'.Filed := by
  obtain ⟨left, hleft, hwait⟩ := hf.unmoved
  rcases sessionStep_files hk h with ⟨hkept, -⟩ | ⟨-, -, before, made, hmakes⟩ | ⟨hst, hnext, hmoved⟩
  · obtain ⟨acts, htrace, hnone⟩ := hkept.trace
    refine ⟨fun node hn => (hkept.names node hn).elim (hf.names node) id, left, ?_, fun hhas => ?_⟩
    · rw [htrace, unmoved_append, hleft, Option.bind_some, Smtpd.unmoved, hnone, balance_nil]
    · obtain ⟨hhad, hlist⟩ := hkept.files hhas
      rw [hlist]
      exact hwait hhad
  · have hshort := short_of_emails hmakes.emails hf.names
    refine ⟨hshort, ((key'.data.rcptList.map RcptNode.tmpPath : List (List UInt8)) : Multiset (List UInt8)) + left, ?_,
      fun _ => Multiset.le_add_right _ _⟩
    have hfilings : filings (before ++ made) = (key'.data.rcptList.map RcptNode.tmpPath).map .take := by
      rw [filings_append, hmakes.idle, hmakes.makes.files hshort, List.map_map, List.nil_append]
      rfl
    rw [hmakes.trace, unmoved_append, hleft, Option.bind_some, Smtpd.unmoved, hfilings, balance_takes]
  · have hempty := hmoved.1
    obtain ⟨acts, htrace, hfilings, -⟩ := moves_files_trace hmoved
    obtain ⟨rest, rfl⟩ := Multiset.le_iff_exists_add.mp (hwait (Or.inr (Or.inl hst)))
    refine ⟨by simp [hempty], rest, ?_, fun _ => by rw [hempty]; exact Multiset.zero_le rest⟩
    have hfilings' : filings acts = (key.data.rcptList.map RcptNode.tmpPath).map .free := by
      rw [hfilings, List.map_map]
      rfl
    rw [htrace, unmoved_append, hleft, Option.bind_some, Smtpd.unmoved, hfilings', balance_frees]

theorem accepted_filed (ha : Accepted key) (h : run sessionStep key es = .ok key') : key'.Filed := by
  refine accepted_invariant (I := fun _ key' => key'.Filed) ha ?_ ?_ h
  · intro client st g os hw
    refine ⟨by simp [hw.fresh.rcptList], 0, ?_, fun _ => by simp [hw.fresh.rcptList]⟩
    rw [hw.fresh.trace]
    rfl
  · intro xs ev key₁ key₂ _ hk hfiled hstep
    exact sessionStep_filed hk hfiled hstep

end Filed

/-- A message since its files were made: `consumed` was read of it, and the files are as they were. -/
structure Message (start : Key) (acts : List Act) (consumed : List UInt8) (key : Key) : Prop where
  trace : key.os.trace = start.os.trace ++ acts
  rcptList : key.data.rcptList = start.data.rcptList
  unclosed : moves acts = []
  unfiled : filings acts = []
  input : start.data.readBuffer.pending ++ receivedBytes acts = consumed ++ key.data.readBuffer.pending
  waiting : key.state = .dataWrite → consumed = []
  parsed : key.state ≠ .dataWrite → key.data.dataParser.state = dataRun .data consumed
  first : ∀ m < consumed.length, dataRun .data (consumed.take m) ≠ .done
  done : key.state ≠ .dataWrite → (key.data.dataParser.state = .done ↔ key.state = .mailInfoWrite)

section Messages

variable {start key key₁ key₂ key' : Key} {acts : List Act} {consumed : List UInt8} {ev : Event} {env : Env}
  {st next : SmtpState}

theorem message_starts (hst : key.state = .dataWrite) : Message key [] [] key where
  trace := (List.append_nil _).symm
  rcptList := rfl
  unclosed := rfl
  unfiled := rfl
  input := List.append_nil _
  waiting := fun _ => rfl
  parsed := fun hn => absurd hst hn
  first := by simp
  done := fun hn => absurd hst hn

/-- Where nothing is read of the message. -/
theorem Message.idle (h : Message start acts consumed key) (sent : List (List UInt8))
    (htrace : key'.os.trace = key.os.trace ++ sent.map .sent) (hstate : key'.state = key.state)
    (hlist : key'.data.rcptList = key.data.rcptList) (hinput : key'.data.readBuffer = key.data.readBuffer)
    (hparser : key'.data.dataParser = key.data.dataParser) : Message start (acts ++ sent.map .sent) consumed key' where
  trace := by rw [htrace, h.trace, List.append_assoc]
  rcptList := hlist.trans h.rcptList
  unclosed := by rw [moves_append, h.unclosed, moves_sent]; rfl
  unfiled := by rw [filings_append, h.unfiled, filings_sent]; rfl
  input := by rw [receivedBytes_append, receivedBytes_sent, List.append_nil, hinput, h.input]
  waiting := by rw [hstate]; exact h.waiting
  parsed := by rw [hstate, hparser]; exact h.parsed
  first := h.first
  done := by rw [hstate, hparser]; exact h.done

/-- The answer to `DATA` is sent, and nothing is read of the message yet. -/
theorem Message.begins (h : Message start acts consumed key) (hst : key.state = .dataWrite)
    (sent : List (List UInt8)) (htrace : key'.os.trace = key.os.trace ++ sent.map .sent)
    (hstate : key'.state = .mailInfoRead) (hlist : key'.data.rcptList = key.data.rcptList)
    (hinput : key'.data.readBuffer = key.data.readBuffer)
    (hparser : key'.data.dataParser = dataParserInit key.data.dataParser) :
    Message start (acts ++ sent.map .sent) [] key' where
  trace := by rw [htrace, h.trace, List.append_assoc]
  rcptList := hlist.trans h.rcptList
  unclosed := by rw [moves_append, h.unclosed, moves_sent]; rfl
  unfiled := by rw [filings_append, h.unfiled, filings_sent]; rfl
  input := by rw [receivedBytes_append, receivedBytes_sent, List.append_nil, hinput, h.input, h.waiting hst]
  waiting := fun _ => rfl
  parsed := fun _ => congrArg DataParser.state hparser
  first := by simp
  done := fun _ => by
    rw [hstate, hparser]
    exact iff_of_false (by simp [dataParserInit]) (by decide)

/-- The message at hand is consumed. -/
theorem Message.read {g : Globals} {received : List (List UInt8)} {front : List UInt8} {rb : Buffer} {dp : DataParser}
    {os : Os} (h : Message start acts consumed key) (hst : key.state = .mailInfoRead)
    (hr : key.ReadsBody env g received front rb dp os) (hos : key'.os.trace = os.trace)
    (hlist : key'.data.rcptList = key.data.rcptList) (hinput : key'.data.readBuffer = rb)
    (hparser : key'.data.dataParser = dp) (hstate : key'.state = .mailInfoRead ∨ key'.state = .mailInfoWrite)
    (hdone : dp.state = .done ↔ key'.state = .mailInfoWrite) :
    ∃ acts' consumed', Message start acts' consumed' key' := by
  obtain ⟨fds, bytes, htrace⟩ := hr.acts
  have hreading : key.state ≠ .dataWrite := by
    rw [hst]
    decide
  have hwait : key'.state ≠ .dataWrite := by
    rcases hstate with he | he <;> rw [he] <;> decide
  have hopen : key.data.dataParser.state ≠ .done := by
    intro hd
    cases hst.symm.trans ((h.done hreading).mp hd)
  have hparsed := h.parsed hreading
  refine ⟨acts ++ (received.map .received ++ fds.map fun fd => .wrote fd bytes), consumed ++ front, ?_⟩
  constructor
  · rw [hos, htrace, h.trace, List.append_assoc]
  · exact hlist.trans h.rcptList
  · simp [h.unclosed]
  · simp [h.unfiled]
  · have hhand := hr.takes.hand.symm.trans hr.input
    rw [receivedBytes_append, receivedBytes_append, receivedBytes_received, receivedBytes_wrote, List.append_nil,
      hinput, ← List.append_assoc, h.input, List.append_assoc, hhand, List.append_assoc]
  · exact fun hn => absurd hn hwait
  · intro _
    rw [hparser, hr.state, hparsed, dataRun_append]
  · intro m hm
    rw [List.length_append] at hm
    by_cases hlt : m < consumed.length
    · rw [List.take_append_of_le_length hlt.le]
      exact h.first m hlt
    · have hcut : (consumed ++ front).take m = consumed ++ front.take (m - consumed.length) := by
        rw [List.take_append, List.take_of_length_le (by omega)]
      rw [hcut, dataRun_append, ← hparsed]
      exact hr.first hopen _ (by omega)
  · intro _
    rw [hparser]
    exact hdone

/-- While the recipients have files, the message goes on. -/
theorem Message.step (hk : key.Agrees key.state) (hm : Message start acts consumed key)
    (hhad : key.HasFiles key.state) (hhas : key'.HasFiles key'.state) (h : sessionStep key ev = .ok key') :
    ∃ acts' consumed', Message start acts' consumed' key' := by
  rcases sessionStep_turn hk.sound hk.output h with
    ⟨op, env, -, -, rfl⟩ | ⟨globals, tree, fds, -, rfl⟩ | ⟨op, env, next, key₁, key₂, -, -, hp⟩
  · exact ⟨acts, consumed, hm⟩
  · exact ⟨_, consumed, hm.idle [] (List.append_nil _).symm rfl rfl rfl rfl⟩
  · have hstate : key'.state = next := settle_state hp.settled
    obtain ⟨hdata, -⟩ := settle_ok hp.settled
    rw [hstate, Key.HasFiles] at hhas
    have hgo : ¬ (next = .error ∨ next = .done) := fun hover => not_hasFiles_of_over hover hhas
    have hplain : next.readsRequest = false := by
      cases hr : next.readsRequest with
      | false => rfl
      | true => exact absurd hhas (not_hasFiles_of_reads hr)
    obtain ⟨-, -, hkeep⟩ := settle_ok hp.settled
    have hkey := hkeep (fun he => hgo (Or.inl he)) fun he => hgo (Or.inr he)
    have hos : key'.os = key₂.os := by rw [hkey]
    have hturn := hp.turn
    have hhooks := hp.hooks
    cases hturn with
    | lost | unsent => exact absurd (Or.inl rfl) hgo
    | listened reads | answered reads => exact absurd hhad (not_hasFiles_of_reads reads)
    | received state reads waits rest =>
      rw [state] at hhooks
      obtain rfl := changeState_same (by decide) (by decide) rfl hhooks
      refine hm.read state reads (congrArg Os.trace hos) (by rw [hdata]) (by rw [hdata]) (by rw [hdata])
        (Or.inl hstate) ?_
      rw [hstate]
      exact iff_of_false waits (by decide)
    | stored state reads done =>
      rw [state] at hhooks
      obtain rfl := changeState_same (by decide) (by decide) rfl hhooks
      refine hm.read state reads (congrArg Os.trace hos) (by rw [hdata]) (by rw [hdata]) (by rw [hdata])
        (Or.inr hstate) ?_
      rw [hstate]
      exact iff_of_true done rfl
    | @sending wb wb' sent =>
      rcases changeState_ok hhooks with ⟨-, rfl⟩ | ⟨hne, -⟩
      · exact ⟨_, consumed, hm.idle [sent] (congrArg Os.trace hos) hstate (by rw [hdata]; rfl) (by rw [hdata]; rfl)
          (by rw [hdata]; rfl)⟩
      · exact absurd rfl hne
    | @sent wb wb' sent _ writes prepares taken any sized split rest after =>
      rcases hhad with hst | hst | ⟨hst, hcommand⟩
      · rw [hst] at writes
        cases writes
      · rw [hst] at after
        cases after
        exact absurd hhas (not_hasFiles_of_reads rfl)
      · rw [hst] at after hhooks
        cases after.symm.trans (congrArg some (if_pos hcommand))
        cases hhooks
        exact ⟨_, [], hm.begins hst [sent] (congrArg Os.trace hos) hstate (by rw [hdata]; rfl) (by rw [hdata]; rfl)
          (by rw [hdata]; rfl)⟩

end Messages

/-- The files of the recipients were made for a `DATA` within the run, the recipients had files in
every state since, and `consumed` was read of the message. -/
def Key.InTransaction (first key : Key) (es : List Event) (consumed : List UInt8) : Prop :=
  ∃ es₁ before ev start es₂ acts, es = es₁ ++ ev :: es₂ ∧ run sessionStep first es₁ = .ok before ∧
    before.state = .dataRead ∧ sessionStep before ev = .ok start ∧ (∃ acts made, before.MakesFiles acts made start) ∧
    run sessionStep start es₂ = .ok key ∧
    Runs.Meets sessionStep (fun key _ => key.HasFiles key.state) start es₂ ∧
    Message start acts consumed key

/-- The files of the recipients are moved, each once, and none of the recipients is left. -/
structure Key.Commits (key key' : Key) : Prop where
  next : key'.state = .mailFromRead ∨ key'.state = .error
  moved : renames key'.os.trace =
    renames key.os.trace ++ key.data.rcptList.map fun node => (node.tmpPath, node.newPath)
  emptied : key'.data.rcptList = []

section Transactions

variable {first key key' : Key} {es : List Event} {ev : Event}

theorem transaction_step {consumed : List UInt8} (hk : key.Agrees key.state)
    (h : first.InTransaction key es consumed) (hhad : key.HasFiles key.state) (hhas : key'.HasFiles key'.state)
    (hstep : sessionStep key ev = .ok key') : ∃ consumed', first.InTransaction key' (es ++ [ev]) consumed' := by
  obtain ⟨es₁, before, ev₁, start, es₂, acts, rfl, hbefore, hst, hstart, hmakes, hrun, hmeets, hm⟩ := h
  obtain ⟨acts', consumed', hm'⟩ := hm.step hk hhad hhas hstep
  refine ⟨consumed', es₁, before, ev₁, start, es₂ ++ [ev], acts', by simp, hbefore, hst, hstart, hmakes, ?_, ?_, hm'⟩
  · exact run_concat_ok.mpr ⟨key, hrun, hstep⟩
  · exact (meets_concat hrun).mpr ⟨hmeets, hhad⟩

theorem accepted_transaction (ha : Accepted first) (h : run sessionStep first es = .ok key)
    (hhas : key.HasFiles key.state) : ∃ consumed, first.InTransaction key es consumed := by
  refine accepted_invariant (I := fun es key => key.HasFiles key.state →
    ∃ consumed, first.InTransaction key es consumed) ha ?_ ?_ h hhas
  · intro client st g os hw hfiles
    rw [Key.HasFiles, hw.fresh.sound.machine.state_eq] at hfiles
    rcases hw.fresh.state with rfl | rfl <;> simp [SmtpState.HasFiles] at hfiles
  · intro xs ev key key' hxs hk hbefore hstep hfiles
    rcases sessionStep_files hk hstep with ⟨hkept, -⟩ | ⟨hread, hwrite, hmakes⟩ | ⟨-, hnext, -⟩
    · have hhad := (hkept.files hfiles).1
      obtain ⟨consumed, htransaction⟩ := hbefore hhad
      exact transaction_step hk htransaction hhad hfiles hstep
    · exact ⟨[], xs, key, ev, key', [], [], rfl, hxs, hread, hstep, hmakes, rfl, meets_nil _ _,
        message_starts hwrite⟩
    · rw [Key.HasFiles] at hfiles
      rcases hnext with he | he <;> rw [he] at hfiles <;> simp [SmtpState.HasFiles] at hfiles

/-- What is read of a message when it is answered ends with the delimiter. -/
theorem transaction_delimiter {consumed : List UInt8} (h : first.InTransaction key es consumed)
    (hst : key.state = .mailInfoWrite) : ∃ body, consumed = body ++ delimiter := by
  obtain ⟨es₁, before, ev, start, es₂, acts, -, -, -, -, -, -, -, hm⟩ := h
  have hwait : key.state ≠ .dataWrite := by
    rw [hst]
    decide
  have hdone : dataRun .data (consumed.take consumed.length) = .done := by
    rw [List.take_length, ← hm.parsed hwait]
    exact (hm.done hwait).mpr hst
  obtain ⟨body, -, hsplit⟩ := dataRun_done_split le_rfl hdone hm.first
  rw [List.take_length] at hsplit
  exact ⟨body, hsplit⟩

theorem moves_commits (hnext : key'.state = .mailFromRead ∨ key'.state = .error) (hmoved : key.MovesFiles key') :
    key.Commits key' := by
  obtain ⟨acts, htrace, -, hrenames⟩ := moves_files_trace hmoved
  refine ⟨hnext, ?_, hmoved.1⟩
  rw [htrace, renames_append, hrenames]

end Transactions

end Smtpd
