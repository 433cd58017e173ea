import Smtpd.Interference
import Smtpd.MainLoop

namespace Smtpd.Serving

open Checked Runs

section Events

variable {P : ServerEvent → Prop} {p : Program} {rounds : List Round}

/-- What is known of the events of every callback is known of all that the server sees. -/
theorem events_forall (h : ∀ r ∈ rounds, ∀ k s d, ∀ e ∈ eventsOf r.turns k s d, P e) : ∀ e ∈ events p rounds, P e := by
  induction rounds generalizing p with
  | nil => exact fun e he => absurd he List.not_mem_nil
  | cons r rounds ih =>
    intro e he
    rw [events, List.mem_append] at he
    rcases he with he | he
    · exact Reactive.observed_forall (h r List.mem_cons_self) e he
    · split at he
      · exact ih (fun r' hr' => h r' (List.mem_cons_of_mem r hr')) e he
      · cases he

/-- In none of its turns the system refuses anything. -/
def Round.Obliging (r : Round) : Prop := ∀ k c, (r.turns k).env.refuses c = false

theorem events_obliging (h : ∀ r ∈ rounds, r.Obliging) : ∀ e ∈ events p rounds, e.Obliging := by
  apply events_forall
  intro r hr k s d e he
  rw [eventsOf, List.mem_cons, Option.mem_toList] at he
  rcases he with rfl | he
  · trivial
  · unfold eventOf at he
    split at he <;> cases he
    · trivial
    · trivial
    · exact h r hr k
    · exact h r hr k

end Events

section SettingUp

variable {a : Setup} {transformations : Option (List UInt8)} {process : Server} {m : Main} {p : Program}

theorem openSockets_process (a : Setup) (process : Server) :
    ∃ fds, (openSockets a process).process = { process with fds } := by
  unfold openSockets Main.close Main.socket
  cases a.socket <;> cases a.socket6969 <;> exact ⟨_, rfl⟩

/-- What `main` finds is what its loop starts with, but for the descriptors and the transformations. -/
theorem setUp_process (h : setUp a transformations process = .ok (.inr (m, p))) :
    p.server.clients = process.clients ∧ p.server.tree = process.tree ∧ p.server.connections = process.connections := by
  obtain ⟨fds, hprocess⟩ := openSockets_process a process
  have hregister : ∀ {server server6969},
      registerSockets a transformations (openSockets a process) server server6969 = .ok (.inr (m, p)) →
      ∃ globals, p.server = { process with fds, globals, program := transformations } := by
    intro server server6969 h
    unfold registerSockets at h
    split at h
    · cases h
    · obtain ⟨⟨ss, w⟩, -, h⟩ := bind_ok h
      dsimp only at h
      split_ifs at h
      · cases h
      · obtain ⟨⟨ss', w'⟩, -, h⟩ := bind_ok h
        dsimp only at h
        split_ifs at h
        · cases h
        · cases h
          exact ⟨_, by rw [hprocess]⟩
  unfold setUp at h
  dsimp only at h
  split at h
  · cases h
  · cases h
  · split_ifs at h
    case pos =>
      obtain ⟨globals, hp⟩ := hregister h
      rw [hp]
      exact ⟨rfl, rfl, rfl⟩
    all_goals cases h

end SettingUp

section Script

/-- What a client says on the third socket of the server, as others have left the files. -/
def mailTurn (tree : FileSystem.Tree) (input : List UInt8) (_ : Nat) : Turn :=
  { goodTurn 0 with tree, env := readyEnv input }

/-- A line is read, and answered. -/
def lineRounds (before after : FileSystem.Tree) (line : List UInt8) : List Round :=
  [{ outcome := .ready {6} ∅, turns := mailTurn before line }, { outcome := .ready ∅ {6}, turns := mailTurn after [] }]

/-- The mailbox of a recipient whose first message is being written. -/
def oneFile : FileSystem.Tree :=
  let mailbox := [mailsDir, ascii "b@smtpd.com"]
  { dirs := [mailbox ++ [tmpDir], mailbox ++ [curDir], mailbox ++ [newDir], mailbox, [mailsDir]]
    files := [mailbox ++ [tmpDir, ascii "id.txt"]] }

/-- A client comes, is greeted, and sends a message. -/
def mailRounds : List Round :=
  [{ outcome := .ready {0} ∅, turns := mailTurn firstOs.tree [] },
    { outcome := .ready ∅ {6}, turns := mailTurn firstOs.tree [] }] ++
  [ascii "EHLO there\r\n", ascii "MAIL FROM:<a@example.com>\r\n", ascii "RCPT TO:<b@smtpd.com>\r\n"].flatMap
    (lineRounds firstOs.tree firstOs.tree) ++
  lineRounds firstOs.tree oneFile (ascii "DATA\r\n") ++ lineRounds oneFile oneFile (ascii "hello\r\n.\r\n")

theorem mailRounds_obliging : ∀ r ∈ mailRounds, r.Obliging := by
  have hline : ∀ {before after line}, ∀ r ∈ lineRounds before after line, r.Obliging := by
    intro before after line r hr
    simp only [lineRounds, List.mem_cons, List.not_mem_nil, or_false] at hr
    rcases hr with rfl | rfl
    · exact fun _ _ => rfl
    · exact fun _ _ => rfl
  intro r hr
  rw [mailRounds, List.mem_append, List.mem_append, List.mem_append] at hr
  obtain ((hr | hr) | hr) | hr := hr
  · simp only [List.mem_cons, List.not_mem_nil, or_false] at hr
    rcases hr with rfl | rfl
    · exact fun _ _ => rfl
    · exact fun _ _ => rfl
  · obtain ⟨line, -, hr⟩ := List.mem_flatMap.mp hr
    exact hline r hr
  · exact hline r hr
  · exact hline r hr

/-- The program that is run for the messages if no other is asked for. -/
def tac : List UInt8 := ascii "tac"

theorem mailRounds_meets (m : Main) (p₀ : Program) (hset : setUp goodSetup (some tac) startedServer = .ok (.inr (m, p₀))) :
    Meets serverStep (fun s e => e.Suits s ∧ e.Obliging ∧ e.Named s) p₀.server (events p₀ mailRounds) := by
  have hobliging : Meets serverStep (fun _ e => e.Obliging) p₀.server (events p₀ mailRounds) :=
    Meets.of_events fun e he _ => events_obliging mailRounds_obliging e he
  obtain ⟨r, hr, hmeets⟩ : ∃ r, setUp goodSetup (some tac) startedServer = .ok r ∧
      (r.elim (fun _ => true) fun r => meetsAll serverStep (fun s e => e.Suits s ∧ e.Named s) r.2.server
        (events r.2 mailRounds)) = true := by
    apply ok_of_any
    decide +kernel
  cases hr.symm.trans hset
  exact ((Meets.of_check hmeets).and hobliging).mono fun _ _ h => ⟨h.1.1, h.2, h.1.2⟩

end Script

section Serving

variable {process : Server} {rounds : List Round}

/-- Whatever clients and system do in events that suit the server, `main` returns 1 or 2, and has freed every connection
once, or it is stopped by the `abort` of `create_mails_files` or of `close_fds`. -/
theorem main_safe (a : Setup) (transformations : Option (List UInt8)) (h₀ : process.connections = [])
    (hclients : process.clients = []) (hnodup : process.fds.Nodup)
    (hsuits : ∀ m p₀, setUp a transformations process = .ok (.inr (m, p₀)) →
      Meets serverStep (fun s e => e.Suits s) p₀.server (events p₀ rounds)) :
    (∃ exit, main a transformations process rounds = .ok exit ∧ (exit.ret = some 1 ∨ exit.ret = some 2) ∧ exit.Freed) ∨
    main a transformations process rounds = .error (.server (.abort .createMailsFiles)) ∨
    main a transformations process rounds = .error (.server (.abort .closeFds)) := by
  obtain ⟨label, m, hset, hm⟩ | ⟨m, p₀, passive, manage, hset, -, -, hc⟩ := setUp_ok a transformations h₀ hnodup
  · obtain ⟨exit, hexit, hleaves⟩ := @main_of_label a transformations process m rounds label hset hm
    exact Or.inl ⟨exit, hexit, hleaves.one_or_two, hleaves.freed⟩
  · obtain ⟨hclients', -, hconnections⟩ := setUp_process hset
    have hsecure := run_secure (secure_start (hconnections.trans h₀) (hclients'.trans hclients)) (hsuits m p₀ hset)
    obtain ⟨ss, p, hloop, hp, -⟩ | ⟨fault, w, hloop, hosts⟩ := mainLoop_hosted hc.hosted rounds
    · obtain ⟨exit, hexit, hret, hfreed, -⟩ := main_of_loop hset hloop hp.coherent.owns
      exact Or.inl ⟨exit, hexit, hret, hfreed⟩
    · rw [main_of_fault hset hloop]
      have hfault : OfFiles fault := (ensures_iff.mp hsecure).2 fault hosts.refines.2
      rcases hfault with rfl | rfl
      · exact Or.inr (Or.inl rfl)
      · exact Or.inr (Or.inr rfl)

/-- Where the server comes through the events of its loop, `main` returns, and has left the connections and the tree as
they were after these. -/
theorem main_of_runs (a : Setup) (transformations : Option (List UInt8)) (h₀ : process.connections = [])
    (hnodup : process.fds.Nodup) (hruns : ∀ m p₀, setUp a transformations process = .ok (.inr (m, p₀)) →
      ∃ s, run serverStep p₀.server (events p₀ rounds) = .ok s) :
    ∃ exit, main a transformations process rounds = .ok exit ∧ (exit.ret = some 1 ∨ exit.ret = some 2) ∧ exit.Freed ∧
      ∀ m p₀ s, setUp a transformations process = .ok (.inr (m, p₀)) →
        run serverStep p₀.server (events p₀ rounds) = .ok s →
          exit.process.connections = s.connections ∧ exit.process.tree = s.tree := by
  obtain ⟨label, m, hset, hm⟩ | ⟨m, p₀, passive, manage, hset, -, -, hc⟩ := setUp_ok a transformations h₀ hnodup
  · obtain ⟨exit, hexit, hleaves⟩ := @main_of_label a transformations process m rounds label hset hm
    refine ⟨exit, hexit, hleaves.one_or_two, hleaves.freed, fun m' p s hserves => ?_⟩
    cases hset.symm.trans hserves
  · obtain ⟨s, hrun⟩ := hruns m p₀ hset
    obtain ⟨ss, p, hloop, hp, -⟩ | ⟨fault, w, hloop, hosts⟩ := mainLoop_hosted hc.hosted rounds
    · obtain ⟨exit, hexit, hret, hfreed, hsame, hsametree⟩ := main_of_loop hset hloop hp.coherent.owns
      refine ⟨exit, hexit, hret, hfreed, fun m' p' s' hserves hrun' => ?_⟩
      cases hset.symm.trans hserves
      cases hp.history.symm.trans hrun'
      exact ⟨hsame, hsametree⟩
    · cases hosts.refines.2.symm.trans hrun

/-- What the loop starts with has nothing on its way, so that it comes through all events that suit it. -/
theorem setUp_serves {a : Setup} {transformations : Option (List UInt8)} {m : Main} {p₀ : Program}
    (h₀ : process.connections = []) (hclients : process.clients = []) (htree : Maildirs process.tree)
    (hset : setUp a transformations process = .ok (.inr (m, p₀)))
    (hmeets : Meets serverStep (fun s e => e.Suits s ∧ e.Obliging ∧ e.Named s) p₀.server (events p₀ rounds)) :
    ∃ s, run serverStep p₀.server (events p₀ rounds) = .ok s ∧ s.Mails := by
  obtain ⟨hclients', htree', hconnections⟩ := setUp_process hset
  obtain ⟨s, hrun, -, hmails⟩ := run_serves (secure_start (hconnections.trans h₀) (hclients'.trans hclients))
    (mails_start (hconnections.trans h₀) (htree' ▸ htree)) hmeets
  exact ⟨s, hrun, hmails⟩

theorem main_safe_one_mail :
    ∃ exit, main goodSetup (some tac) startedServer mailRounds = .ok exit ∧ (exit.ret = some 1 ∨ exit.ret = some 2) ∧
      exit.Freed := by
  obtain ⟨returned, hreturned, -⟩ := @main_of_runs startedServer mailRounds goodSetup (some tac) rfl (by decide)
    fun m p₀ hset => by
      obtain ⟨s, hrun, -⟩ := setUp_serves rfl rfl ⟨by decide, by decide⟩ hset (mailRounds_meets m p₀ hset)
      exact ⟨s, hrun⟩
  obtain hexit | hcreate | hclose := main_safe goodSetup (some tac) rfl rfl (by decide) fun m p₀ hset =>
    (mailRounds_meets m p₀ hset).mono fun _ _ h => h.1
  · exact hexit
  · cases hreturned.symm.trans hcreate
  · cases hreturned.symm.trans hclose

/-- Where the system refuses nothing either, `main` always returns. All that its loop has served is then as it should
be: the server has come through all events, the files of the messages that are still on their way are in the mailboxes
of their recipients, and nothing was done outside of these. -/
theorem main_serves (a : Setup) (transformations : Option (List UInt8)) (h₀ : process.connections = [])
    (hclients : process.clients = []) (hnodup : process.fds.Nodup) (htree : Maildirs process.tree)
    (hmeets : ∀ m p₀, setUp a transformations process = .ok (.inr (m, p₀)) →
      Meets serverStep (fun s e => e.Suits s ∧ e.Obliging ∧ e.Named s) p₀.server (events p₀ rounds)) :
    ∃ exit, main a transformations process rounds = .ok exit ∧ (exit.ret = some 1 ∨ exit.ret = some 2) ∧ exit.Freed ∧
      ∀ m p₀, setUp a transformations process = .ok (.inr (m, p₀)) → ∃ s,
        run serverStep p₀.server (events p₀ rounds) = .ok s ∧ exit.process.connections = s.connections ∧
        exit.process.tree = s.tree ∧ ∀ key ∈ s.connections,
          (key.HasFiles key.state → Filed s.tree key.data.rcptList) ∧ ∀ act ∈ key.os.trace, act.Confined := by
  have hserved : ∀ m p₀, setUp a transformations process = .ok (.inr (m, p₀)) →
      ∃ s, run serverStep p₀.server (events p₀ rounds) = .ok s ∧ s.Mails :=
    fun m p₀ hset => setUp_serves h₀ hclients htree hset (hmeets m p₀ hset)
  obtain ⟨exit, hexit, hret, hfreed, hleft⟩ := @main_of_runs process rounds a transformations h₀ hnodup
    fun m p₀ hset => (hserved m p₀ hset).imp fun _ hs => hs.1
  refine ⟨exit, hexit, hret, hfreed, fun m p₀ hset => ?_⟩
  obtain ⟨s, hrun, hmails⟩ := hserved m p₀ hset
  obtain ⟨hsame, hsametree⟩ := hleft m p₀ s hset hrun
  refine ⟨s, hrun, hsame, hsametree, fun key hkey => ?_⟩
  have hkept := hmails.keeps key hkey
  exact ⟨hkept.filed, hkept.os.trace⟩

theorem main_serves_one_mail :
    ∃ exit, main goodSetup (some tac) startedServer mailRounds = .ok exit ∧
      (exit.ret = some 1 ∨ exit.ret = some 2) ∧ exit.Freed ∧
      ∃ m p₀ s, setUp goodSetup (some tac) startedServer = .ok (.inr (m, p₀)) ∧
        run serverStep p₀.server (events p₀ mailRounds) = .ok s ∧ exit.process.connections = s.connections ∧
        exit.process.tree = s.tree ∧ ∀ key ∈ s.connections,
          (key.HasFiles key.state → Filed s.tree key.data.rcptList) ∧ ∀ act ∈ key.os.trace, act.Confined := by
  obtain ⟨exit, hexit, hret, hfreed, hserves⟩ := main_serves goodSetup (some tac) rfl rfl (by decide)
    ⟨by decide, by decide⟩ mailRounds_meets
  obtain ⟨label, m, hset, -⟩ | ⟨m, p₀, passive, manage, hset, -, -, -⟩ :=
    @setUp_ok startedServer goodSetup (some tac) rfl (by decide)
  · -- nothing has failed
    obtain ⟨started, hstarted, hright⟩ : ∃ r, setUp goodSetup (some tac) startedServer = .ok r ∧ r.isRight = true := by
      apply ok_of_any
      decide +kernel
    cases hstarted.symm.trans hset
    cases hright
  · exact ⟨exit, hexit, hret, hfreed, m, p₀, (hserves m p₀ hset).imp fun _ hs => ⟨hset, hs⟩⟩

end Serving

end Smtpd.Serving
