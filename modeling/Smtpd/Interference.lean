import Smtpd.Safety
import Smtpd.MailboxConfinement
import Smtpd.MailStorage

namespace Smtpd

open Checked CString FileSystem Runs

section Files

variable {env : Env} {os os' : Os} {names : List (Option Name)} {mailfrom : List UInt8}
  {program : Option (List UInt8)} {transformations : Bool} {head head' : List RcptNode}

theorem ensureDir_keeps {path : List UInt8} (h : ensureDir env os path = .ok os') : os.tree.Keeps names os'.tree := by
  unfold ensureDir Os.stat at h
  dsimp only at h
  split_ifs at h with hfound hmade
  · cases h
    exact Tree.Keeps.refl names os.tree
  · cases h
    unfold Os.mkdir at hmade ⊢
    dsimp only at hmade ⊢
    split at hmade
    next tree hmkdir =>
      have hmkdir' : os.tree.mkdir path = some tree := by
        split_ifs at hmkdir
        exact hmkdir
      exact mkdir_keeps hmkdir'
    · cases hmade

theorem openFile_keeps {path : List UInt8} {fd : Nat} (h : os.openFile env path = (some fd, os')) :
    os.tree.Keeps names os'.tree := by
  unfold Os.openFile at h
  dsimp only at h
  split at h
  next tree hcreate =>
    have hcreate' : os.tree.create path = some tree := by
      split_ifs at hcreate
      exact hcreate
    cases h
    exact create_keeps hcreate'
  · cases h

theorem pipeToProgram_tree {fd w : Nat} (h : pipeToProgram env os program fd = .ok (w, os')) : os'.tree = os.tree := by
  unfold pipeToProgram at h
  split at h
  · cases h
  next r w' os₁ hpipe =>
    have htree : os₁.tree = os.tree := by
      unfold Os.pipe at hpipe
      dsimp only at hpipe
      split_ifs at hpipe
      · cases hpipe
      · cases hpipe
        rfl
    dsimp only at h
    split at h
    · cases h
    · cases h
      exact htree

theorem createMailFile_keeps {uuidStr : List UInt8} {current node : RcptNode}
    (h : createMailFile env os uuidStr mailfrom program transformations current = .ok (node, os')) :
    os.tree.Keeps names os'.tree ∧
      node.filename = some (snprintf (maxEmailLength + 5) (uuidStr ++ ascii ".txt")) := by
  obtain ⟨email, -, h⟩ := bind_ok h
  obtain ⟨os₁, h₁, h⟩ := bind_ok h
  obtain ⟨os₂, h₂, h⟩ := bind_ok h
  obtain ⟨os₃, h₃, h⟩ := bind_ok h
  obtain ⟨os₄, h₄, h⟩ := bind_ok h
  have hdirs : os.tree.Keeps names os₄.tree :=
    (((ensureDir_keeps h₁).trans (ensureDir_keeps h₂)).trans (ensureDir_keeps h₃)).trans (ensureDir_keeps h₄)
  dsimp only at h
  split at h
  · cases h
  next fd os₅ hopen =>
    have hmade := hdirs.trans (openFile_keeps hopen)
    obtain ⟨sender, -, h⟩ := bind_ok h
    split at h
    · obtain ⟨⟨w, os₆⟩, hpipe, h⟩ := bind_ok h
      cases h
      rw [pipeToProgram_tree hpipe]
      exact ⟨hmade, rfl⟩
    · cases h
      exact ⟨hmade, rfl⟩

theorem createMailFilesFrom_keeps {k : Nat}
    (h : createMailFilesFrom env k os mailfrom program transformations head = .ok (head', os')) :
    os.tree.Keeps names os'.tree ∧ ∀ node ∈ head', ∃ j < head.length,
      node.filename = some (snprintf (maxEmailLength + 5) (env.uuid (k + j) ++ ascii ".txt")) := by
  induction head generalizing k os head' with
  | nil =>
    cases h
    exact ⟨Tree.Keeps.refl names _, fun _ hn => absurd hn List.not_mem_nil⟩
  | cons current next ih =>
    obtain ⟨⟨node, os₁⟩, hnode, h⟩ := bind_ok h
    obtain ⟨⟨rest, os₂⟩, hrest, h⟩ := bind_ok h
    cases h
    obtain ⟨hkeeps, hname⟩ := createMailFile_keeps hnode
    obtain ⟨hkeeps', hnames⟩ := ih hrest
    refine ⟨hkeeps.trans hkeeps', List.forall_mem_cons.mpr ⟨⟨0, Nat.succ_pos _, hname⟩, fun n hn => ?_⟩⟩
    obtain ⟨j, hj, hfile⟩ := hnames n hn
    refine ⟨j + 1, Nat.succ_lt_succ hj, ?_⟩
    rw [hfile, Nat.add_assoc, Nat.add_comm 1]

/-- What `create_mails_files` makes is added to what is there, under the names that are generated. -/
theorem createMailsFiles_keeps
    (h : createMailsFiles env os head mailfrom program transformations = .ok (head', os')) :
    os.tree.Keeps names os'.tree ∧ ∀ node ∈ head', ∃ j < head.length,
      node.filename = some (snprintf (maxEmailLength + 5) (env.uuid j ++ ascii ".txt")) := by
  obtain ⟨os₁, hdir, h⟩ := bind_ok h
  obtain ⟨hkeeps, hnames⟩ := createMailFilesFrom_keeps h
  refine ⟨(ensureDir_keeps hdir).trans hkeeps, fun node hnode => ?_⟩
  obtain ⟨j, hj, hfile⟩ := hnames node hnode
  rw [Nat.zero_add] at hfile
  exact ⟨j, hj, hfile⟩

/-- `close_fds` moves the files of the recipients, and leaves all others where they are. -/
theorem closeFds_keeps (hob : ∀ c, env.refuses c = false) (ht : os.Tidy) (hf : Filed os.tree head)
    (hnames : ∀ node ∈ head, node.filename ∈ names) (h : closeFds env os head = .ok os') :
    os.tree.Keeps names os'.tree := by
  induction head generalizing os with
  | nil =>
    cases h
    exact Tree.Keeps.refl names _
  | cons current next ih =>
    obtain ⟨hname, hnext⟩ := List.forall_mem_cons.mp hnames
    obtain ⟨name, file, hnode⟩ := hf.nodes current List.mem_cons_self
    have hn := hnode.named.entry
    have hold := resolve_mail hnode.box.root hnode.box.box hnode.box.tmp hn tmpDir_entry hnode.entry
    have hnew := resolve_mail hnode.box.root hnode.box.box hnode.box.new hn newDir_entry hnode.entry
    have hisFile : os.tree.isFile [mailsDir, name, tmpDir, file] = true := by simp [Tree.isFile, hnode.file]
    have hrename := rename_file hold hnew hisFile (ht.tree.not_dir rfl (by simp)) (by simp [tmpDir, newDir]; decide)
    have hp := (mailPath_below hn tmpDir_entry hnode.entry).leads mailsDir_entry
    have hp' := (mailPath_below hn newDir_entry hnode.entry).leads mailsDir_entry
    obtain ⟨fd, -, h⟩ := bind_ok h
    obtain ⟨email, hemail, h⟩ := bind_ok h
    obtain rfl : name = email := Option.some.inj (hnode.named.email.symm.trans (demand_ok hemail))
    obtain ⟨filename, hfilename, h⟩ := bind_ok h
    obtain rfl : file = filename := Option.some.inj (hnode.filename.symm.trans (demand_ok hfilename))
    simp only [snprintf_closing (by decide : 100 ≤ maxEmailLength * 3) hnode.named.short hnode.short rfl
        (by decide : ascii "/tmp/" = slash :: (tmpDir ++ [slash])),
      snprintf_closing (by decide : 100 ≤ 400) hnode.named.short hnode.short rfl
        (by decide : ascii "/new/" = slash :: (newDir ++ [slash])),
      rename_done hob ((os.close fd).stat env _).2 hrename] at h
    split_ifs at h with hfound
    have hlast : [mailsDir, name, tmpDir, file].getLast? ∈ names := by
      rw [hnode.filename] at hname
      exact hname
    have hmoved : os.tree.Keeps names { os.tree with
        files := [mailsDir, name, newDir, file] :: os.tree.files.filter (· ≠ [mailsDir, name, tmpDir, file]) } :=
      rename_keeps hrename hold hlast
    refine hmoved.trans (ih ⟨?_, ?_⟩ (hf.moved hnode.filename) hnext h)
    · refine ht.tree.setFiles (by rfl) fun m hm => (List.mem_cons.mp hm).imp id ?_
      exact fun hm => (List.mem_filter.mp hm).1
    · have hstat := Os.Tidy.record (ht.close fd) (a := .call (.stat _)) hp
      exact (Os.Tidy.record hstat (a := .call (.rename _ _)) ⟨hp, hp'⟩).trace

end Files

section Turns

variable {env : Env} {key key₁ key' : Key} {st next : SmtpState} {op : Ready} {names : List (Option Name)}

theorem Key.ReadsBody.tree {g : Globals} {received : List (List UInt8)} {front : List UInt8} {rb : Buffer}
    {dp : DataParser} {os : Os} (h : key.ReadsBody env g received front rb dp os) : os.tree = key.os.tree := by
  obtain ⟨fds, -, rfl⟩ := writeToFiles_ok h.written
  rfl

theorem Key.Turn.tree (h : key.Turn env st next key₁) : key.os.tree.Keeps names key₁.os.tree := by
  cases h with
  | answered reads takes fed done answer =>
    cases answer with
    | served serves =>
      cases serves with
      | sender mail copied =>
        obtain ⟨mailfrom, rfl⟩ := copyMailfrom_ok copied
        exact Tree.Keeps.refl names _
      | data data created => exact (createMailsFiles_keeps created).1
      | _ => exact Tree.Keeps.refl names _
    | _ => exact Tree.Keeps.refl names _
  | received state reads | stored state reads =>
    show key.os.tree.Keeps names (Os.tree _)
    rw [reads.tree]
    exact Tree.Keeps.refl names _
  | _ => exact Tree.Keeps.refl names _

/-- The end of the answer to a message takes the files of the recipients away, and nothing else does. -/
theorem sessionStep_tree (hk : key.Agrees key.state) (hkeeps : key.Keeps (key.HasFiles key.state))
    (hob : ∀ c, env.refuses c = false)
    (hnames : key.HasFiles key.state → ∀ node ∈ key.data.rcptList, node.filename ∈ names)
    (h : sessionStep key (.ready op env) = .ok key') : key.os.tree.Keeps names key'.os.tree := by
  rcases sessionStep_turn hk.sound hk.output h with
    ⟨op, env, -, -, rfl⟩ | ⟨globals, tree, fds, he, -⟩ | ⟨op, env', next, key₁, key₂, he, -, hp⟩
  · exact Tree.Keeps.refl names _
  · cases he
  · cases he
    have hsettled : key'.os.tree = key₂.os.tree := by
      have hreg := (changeState_turned (hp.turn.turned hk hp.registered) hp.hooks).registered
      rcases settle_eq hreg hp.settled with ⟨-, rfl⟩ | ⟨-, rfl⟩ <;> rfl
    rw [hsettled]
    rcases changeState_ok hp.hooks with ⟨-, rfl⟩ | ⟨hne, key₃, hleave, rfl⟩
    · exact hp.turn.tree
    · have harrive : (key₃.arrive next).os = key₃.os := (arrive_same next key₃).2.1
      rw [harrive]
      cases hleave with
      | plain | body => exact hp.turn.tree
      | @commit os state closed =>
        have hhas : key.HasFiles key.state := Or.inr (Or.inl state)
        obtain ⟨hkept, hlist, htree⟩ : key₁.Keeps (key.HasFiles key.state) ∧
            key₁.data.rcptList = key.data.rcptList ∧ key₁.os.tree = key.os.tree := by
          have hturn := hp.turn
          rw [state] at hturn
          cases hturn with
          | lost reads | listened reads | answered reads => cases reads
          | received state | stored state => cases state
          | unsent => exact ⟨hkeeps.withOutput _ _ _, rfl, rfl⟩
          | sending => exact absurd state.symm hne
          | sent => exact ⟨hkeeps.withOutput _ _ _, rfl, rfl⟩
        rw [← htree]
        refine closeFds_keeps hob hkept.os (hkept.filed hhas) ?_ closed
        rw [hlist]
        exact hnames hhas

/-- The files that a connection writes are those that it has written to, or they are new. -/
theorem sessionStep_named (hk : key.Agrees key.state) (hhas : key'.HasFiles key'.state)
    (h : sessionStep key (.ready op env) = .ok key') :
    key.HasFiles key.state ∧ key'.data.rcptList = key.data.rcptList ∨
      key.state = .dataRead ∧ ∀ node ∈ key'.data.rcptList, ∃ j < key.data.rcptList.length,
        node.filename = some (snprintf (maxEmailLength + 5) (env.uuid j ++ ascii ".txt")) := by
  by_cases hhad : key.HasFiles key.state
  · refine Or.inl ⟨hhad, ?_⟩
    rcases sessionStep_files hk h with ⟨hkept, -⟩ | ⟨hread, -⟩ | ⟨-, hnext, -⟩
    · exact (hkept.files hhas).2
    · exact absurd hhad (not_hasFiles_of_reads (by rw [hread]; rfl))
    · refine absurd hhas ?_
      rcases hnext with he | he <;> rw [Key.HasFiles, he] <;> simp [SmtpState.HasFiles]
  · obtain ⟨env', he, hbegins⟩ := sessionStep_begins hk hhad hhas h
    cases he
    obtain ⟨received, program, os, os', hcreated, -, -⟩ := hbegins.files
    exact Or.inr ⟨hbegins.state, (@createMailsFiles_keeps _ _ _ [] _ _ _ _ _ hcreated).2⟩

end Turns

/-- The system refuses the server nothing. -/
def ServerEvent.Obliging : ServerEvent → Prop
  | .ready _ _ env => ∀ c, env.refuses c = false
  | _ => True

/-- Files get new names, the recipients that are taken are given as names, and other programs leave the mailboxes and the
files that are being written. -/
def ServerEvent.Named (s : Server) : ServerEvent → Prop
  | .ready i op env => ∀ key ∈ s.connections[i]?,
      (key.state = .dataRead → env.NamesFiles s.tree key.data.rcptList.length) ∧
        (s.sync key).Meets GivesName (.ready op env)
  | .elsewhere tree _ => Maildirs tree ∧ s.tree.dirs ⊆ tree.dirs ∧ ∀ key ∈ s.connections,
      ∀ l ∈ s.tree.files, l.getLast? ∈ key.data.rcptList.map RcptNode.filename → l ∈ tree.files
  | .accept .. | .datagram _ | .setMaxUsers _ | .setNewStatus _ => True

/-- The mailboxes of all connections, and the files that they write, of which no two have one name. -/
structure Server.Mails (s : Server) : Prop where
  tree : Maildirs s.tree
  keeps : ∀ key ∈ s.connections, (s.sync key).Keeps (key.HasFiles key.state)
  apart : ∀ (i j : Nat) (key other : Key), i ≠ j → s.connections[i]? = some key → s.connections[j]? = some other →
    key.HasFiles key.state → other.HasFiles other.state →
      ∀ node ∈ key.data.rcptList, node.filename ∉ other.data.rcptList.map RcptNode.filename

section Servers

variable {s s' s₀ : Server} {e : ServerEvent} {es : List ServerEvent} {key key' other : Key} {i j : Nat} {op : Ready}
  {env : Env} {files : Prop} {names : List (Option Name)}

/-- What a connection has of the tree stays where only other files go away. -/
theorem Key.Keeps.beside (h : (s.sync other).Keeps files) (htree : Maildirs s'.tree)
    (hkeeps : s.tree.Keeps names s'.tree) (hapart : files → ∀ node ∈ other.data.rcptList, node.filename ∉ names) :
    (s'.sync other).Keeps files := by
  refine ⟨h.names, ⟨htree, h.os.trace⟩, fun hf => ⟨fun node hnode => ?_, (h.filed hf).distinct⟩⟩
  obtain ⟨name, file, hfiled⟩ := (h.filed hf).nodes node hnode
  refine ⟨name, file, hfiled.mono hkeeps.dirs (hkeeps.files _ hfiled.file ?_)⟩
  have hlast : [mailsDir, name, tmpDir, file].getLast? = node.filename := hfiled.filename.symm
  rw [hlast]
  exact hapart hf node hnode

theorem Server.Mails.more (hm : s.Mails) {more : List Key} (hmore : ∀ key ∈ more, key.data.rcptList = [] ∧ key.os.trace = [])
    (htree : s'.tree = s.tree) (hconnections : s'.connections = s.connections ++ more) : s'.Mails := by
  have hnone : ∀ key ∈ more, ∀ node, node ∉ key.data.rcptList := by
    intro key hkey node hnode
    rw [(hmore key hkey).1] at hnode
    cases hnode
  have hget : ∀ (i : Nat) (key : Key), s'.connections[i]? = some key → s.connections[i]? = some key ∨ key ∈ more := by
    intro i key hi
    rw [hconnections, List.getElem?_append] at hi
    split_ifs at hi
    · exact Or.inl hi
    · exact Or.inr (List.mem_of_getElem? hi)
  have htidy : Maildirs s'.tree := by
    rw [htree]
    exact hm.tree
  refine ⟨htidy, fun key hkey => ?_, fun i j key other hne hi hj hhas hhas' node hnode => ?_⟩
  · rw [hconnections] at hkey
    rcases List.mem_append.mp hkey with hkey | hkey
    · refine (hm.keeps key hkey).beside htidy ?_ fun _ _ _ => List.not_mem_nil
      rw [htree]
      exact Tree.Keeps.refl [] _
    · obtain ⟨hlist, htrace⟩ := hmore key hkey
      refine ⟨fun node hnode => absurd hnode (hnone key hkey node), ⟨htidy, fun act hact => ?_⟩,
        fun _ => ⟨fun node hnode => absurd hnode (hnone key hkey node), ?_⟩⟩
      · have hmem : act ∈ key.os.trace := hact
        rw [htrace] at hmem
        cases hmem
      · show (key.data.rcptList.map RcptNode.filename).Nodup
        rw [hlist]
        exact List.nodup_nil
  · rcases hget i key hi with hi | hi
    · rcases hget j other hj with hj | hj
      · exact hm.apart i j key other hne hi hj hhas hhas' node hnode
      · rw [(hmore other hj).1]
        exact List.not_mem_nil
    · exact absurd hnode (hnone key hi node)

theorem Server.Mails.same (hm : s.Mails) (htree : s'.tree = s.tree) (hconnections : s'.connections = s.connections) : s'.Mails := by
  have hnone : ∀ key ∈ ([] : List Key), key.data.rcptList = [] ∧ key.os.trace = [] :=
    fun _ hkey => absurd hkey List.not_mem_nil
  exact hm.more hnone htree (hconnections.trans (List.append_nil _).symm)

/-- The event of a connection leaves the files that the others write. -/
theorem Server.Mails.ready (hs : s.Grown) (hm : s.Mails) (hob : ∀ c, env.refuses c = false)
    (hfresh : key.state = .dataRead → env.NamesFiles s.tree key.data.rcptList.length)
    (hgives : (s.sync key).Meets GivesName (.ready op env)) (hi : s.connections[i]? = some key)
    (hstep : sessionStep (s.sync key) (.ready op env) = .ok key') (htree : s'.tree = key'.os.tree)
    (hconnections : s'.connections = s.connections.set i key') (hfds : s'.fds = key'.os.fds)
    (hglobals : s'.globals = key'.globals) : s'.Mails := by
  obtain ⟨key₀, es, ha, hrun⟩ := hs.sync hi
  have hk := accepted_agrees ha hrun
  have hkeeps := hm.keeps key (List.mem_of_getElem? hi)
  have hserved : (s.sync key).Served (.ready op env) := ⟨hob, hfresh⟩
  have hkeeps' := (ensures_iff.mp (sessionStep_keeps hk.sound hkeeps hserved hgives)).1 key' hstep
  have hsync : s'.sync key' = key' := by
    rw [Server.sync, htree, hfds, hglobals]
  have hlt := (List.getElem?_eq_some_iff.mp hi).1
  -- what goes away of the tree is only what the connection has written
  obtain ⟨names, hnames, hkept⟩ : ∃ names : List (Option Name), (∀ n ∈ names, key.HasFiles key.state ∧
      n ∈ key.data.rcptList.map RcptNode.filename) ∧ s.tree.Keeps names s'.tree := by
    rw [htree]
    by_cases hhad : key.HasFiles key.state
    · exact ⟨key.data.rcptList.map RcptNode.filename, fun n hn => ⟨hhad, hn⟩,
        sessionStep_tree hk hkeeps hob (fun _ node hnode => List.mem_map_of_mem hnode) hstep⟩
    · exact ⟨[], fun n hn => absurd hn List.not_mem_nil, sessionStep_tree hk hkeeps hob (fun hf => absurd hf hhad) hstep⟩
  have htidy : Maildirs s'.tree := by
    rw [htree]
    exact hkeeps'.os.tree
  have hnew : key'.HasFiles key'.state → ∀ (j : Nat) (other : Key), i ≠ j → s.connections[j]? = some other →
      other.HasFiles other.state → ∀ node ∈ key'.data.rcptList, ∀ node' ∈ other.data.rcptList,
        node.filename ≠ node'.filename := by
    intro hhas j other hne hj hhas' node hnode node' hnode' he
    rcases sessionStep_named hk hhas hstep with ⟨hhad, hlist⟩ | ⟨hread, hnamed⟩
    · rw [hlist] at hnode
      refine hm.apart i j key other hne hi hj hhad hhas' node hnode ?_
      rw [he]
      exact List.mem_map_of_mem hnode'
    · obtain ⟨k, hlt, hfile⟩ := hnamed node hnode
      have hnames := hfresh hread
      have hshort : (env.uuid k ++ ascii ".txt").length < maxEmailLength + 5 := by
        have hlen := hnames.short k hlt
        have htxt : (ascii ".txt").length = 4 := by decide
        have hmax : maxEmailLength = 40 := rfl
        rw [List.length_append, htxt]
        omega
      rw [snprintf_fits hshort] at hfile
      obtain ⟨name, file, hfiled⟩ := ((hm.keeps other (List.mem_of_getElem? hj)).filed hhas').nodes node' hnode'
      refine hnames.fresh k hlt _ hfiled.file ?_
      show some file = _
      rw [← hfiled.filename, ← he, hfile]
  refine ⟨htidy, fun k hk' => ?_, fun a b k other hne ha hb hhas hhas' node hnode => ?_⟩
  · rw [hconnections] at hk'
    obtain ⟨j, hj⟩ := List.mem_iff_getElem?.mp hk'
    by_cases hij : i = j
    · subst hij
      rw [List.getElem?_set_self hlt] at hj
      cases hj
      rw [hsync]
      exact hkeeps'
    · rw [List.getElem?_set_ne hij] at hj
      refine (hm.keeps k (List.mem_of_getElem? hj)).beside htidy hkept fun hhas node hnode hn => ?_
      obtain ⟨hhad, hmem⟩ := hnames _ hn
      exact hm.apart j i k key (Ne.symm hij) hj hi hhas hhad node hnode hmem
  · rw [hconnections] at ha hb
    by_cases hia : i = a
    · subst hia
      rw [List.getElem?_set_self hlt] at ha
      rw [List.getElem?_set_ne hne] at hb
      cases ha
      intro hmem
      obtain ⟨node', hnode', he⟩ := List.mem_map.mp hmem
      exact hnew hhas b other hne hb hhas' node hnode node' hnode' he.symm
    · rw [List.getElem?_set_ne hia] at ha
      by_cases hib : i = b
      · subst hib
        rw [List.getElem?_set_self hlt] at hb
        cases hb
        intro hmem
        obtain ⟨node', hnode', he⟩ := List.mem_map.mp hmem
        exact hnew hhas' a k hia ha hhas node' hnode' node hnode he
      · rw [List.getElem?_set_ne hib] at hb
        exact hm.apart a b k other hne ha hb hhas hhas' node hnode

theorem serverStep_mails (hs : s.Grown) (hm : s.Mails) (hob : e.Obliging) (hnamed : e.Named s)
    (h : serverStep s e = .ok s') : s'.Mails := by
  cases e with
  | accept env outcome =>
    have htree : s'.tree = s.tree := by
      obtain ⟨⟨globals, os, r⟩, haccept, h⟩ := bind_ok h
      cases h
      obtain ⟨client, -, -, ⟨-, rfl, -⟩ | ⟨-, rfl, -⟩⟩ := smtpPassiveAccept_ok haccept <;> rfl
    obtain ⟨client, -, -, ⟨-, hsame⟩ | ⟨-, key, os, hmore, -, hw⟩⟩ := serverStep_accept h
    · exact hm.same htree hsame
    · refine hm.more (fun key' hkey' => ?_) htree hmore
      rw [List.mem_singleton.mp hkey']
      exact ⟨hw.fresh.rcptList, hw.fresh.trace⟩
  | ready i op env =>
    rcases serverStep_ready h with ⟨-, rfl⟩ | ⟨key, key', hi, hstep, rfl⟩
    · exact hm
    · obtain ⟨hfresh, hgives⟩ := hnamed key hi
      exact hm.ready hs hob hfresh hgives hi hstep rfl rfl rfl rfl
  | datagram e =>
    obtain ⟨management, -, h⟩ := bind_ok h
    cases h
    exact hm.same rfl rfl
  | setMaxUsers | setNewStatus =>
    cases h
    exact hm.same rfl rfl
  | elsewhere tree fds =>
    cases h
    obtain ⟨htidy, hdirs, hfiles⟩ := hnamed
    refine ⟨htidy, fun key hkey => ?_, hm.apart⟩
    have hkept := hm.keeps key hkey
    refine ⟨hkept.names, ⟨htidy, hkept.os.trace⟩, fun hf => ⟨fun node hnode => ?_, (hkept.filed hf).distinct⟩⟩
    obtain ⟨name, file, hfiled⟩ := (hkept.filed hf).nodes node hnode
    refine ⟨name, file, hfiled.mono hdirs (hfiles key hkey _ hfiled.file ?_)⟩
    have hlast : [mailsDir, name, tmpDir, file].getLast? = node.filename := hfiled.filename.symm
    rw [hlast]
    exact List.mem_map_of_mem hnode

/-- An event that suits the server, and for which the system does what it is asked for, does not stop it. -/
theorem serverStep_serves (hs : s.Secure) (hm : s.Mails) (hsuits : e.Suits s) (hob : e.Obliging) (hnamed : e.Named s) :
    Ensures (fun s' => s'.Secure ∧ s'.Mails) (fun _ => False) (serverStep s e) := by
  have hsecure := ensures_iff.mp (serverStep_secure hs hsuits)
  refine ensures_iff.mpr ⟨fun s' h => ⟨hsecure.1 s' h, serverStep_mails hs.grown hm hob hnamed h⟩, fun fault h => ?_⟩
  obtain ⟨hfiles, i, op, env, key, rfl, hi, hstep⟩ := hsecure.2 fault h
  obtain ⟨hfresh, hgives⟩ := hnamed key hi
  obtain ⟨key₀, es, ha, hrun⟩ := hs.grown.sync hi
  have hserved : (s.sync key).Served (.ready op env) := ⟨hob, hfresh⟩
  have hspared := (ensures_iff.mp (sessionStep_keeps (accepted_agrees ha hrun).sound
    (hm.keeps key (List.mem_of_getElem? hi)) hserved hgives)).2 fault hstep
  exact hfiles.elim hspared.1 hspared.2

theorem mails_start (h₀ : s.connections = []) (htree : Maildirs s.tree) : s.Mails := by
  refine ⟨htree, fun key hkey => ?_, fun i j key other _ hi => ?_⟩
  · rw [h₀] at hkey
    cases hkey
  · rw [h₀] at hi
    cases hi

theorem run_serves (hs : s.Secure) (hm : s.Mails)
    (hmeets : Meets serverStep (fun s e => e.Suits s ∧ e.Obliging ∧ e.Named s) s es) :
    ∃ s', run serverStep s es = .ok s' ∧ s'.Secure ∧ s'.Mails := by
  have hkeeps : ∀ s e, s.Secure ∧ s.Mails → ServerEvent.Suits s e ∧ e.Obliging ∧ e.Named s →
      Ensures (fun s' => s'.Secure ∧ s'.Mails) (fun _ => False) (serverStep s e) :=
    fun s e hs he => serverStep_serves hs.1 hs.2 he.1 he.2.1 he.2.2
  exact (run_ensures hkeeps ⟨hs, hm⟩ hmeets).exists_ok

/-- Where the system refuses nothing, the server never stops: whatever its clients send in events that suit it, and in
whatever order, every step of it comes to its end, the files of all messages on their way are in the mailboxes of their
recipients, and nothing was done outside of these. -/
theorem server_serves (h₀ : s₀.connections = []) (hclients : s₀.clients = []) (htree : Maildirs s₀.tree)
    (hmeets : Meets serverStep (fun s e => e.Suits s ∧ e.Obliging ∧ e.Named s) s₀ es) :
    ∃ s, run serverStep s₀ es = .ok s ∧ ∀ key ∈ s.connections,
      (key.HasFiles key.state → Filed s.tree key.data.rcptList) ∧ ∀ act ∈ key.os.trace, act.Confined := by
  obtain ⟨s, hrun, -, hm⟩ := run_serves (secure_start h₀ hclients) (mails_start h₀ htree) hmeets
  refine ⟨s, hrun, fun key hkey => ?_⟩
  have hkept := hm.keeps key hkey
  exact ⟨hkept.filed, hkept.os.trace⟩

end Servers

section Script

instance (t : FileSystem.Tree) : Decidable (Maildirs t) :=
  decidable_of_iff ((∀ l ∈ t.dirs, l.head? = some mailsDir → l.length ≤ 3) ∧
    ∀ l ∈ t.files, l.head? = some mailsDir → l.length = 4) ⟨fun h => ⟨h.1, h.2⟩, fun h => ⟨h.dirs, h.files⟩⟩

instance (s : Server) : DecidablePred (ServerEvent.Named s)
  | .ready i op env => inferInstanceAs (Decidable (∀ key ∈ s.connections[i]?,
      (s.sync key).NamesFiles (.ready op env) ∧ (s.sync key).Meets GivesName (.ready op env)))
  | .elsewhere tree _ => inferInstanceAs (Decidable (Maildirs tree ∧ s.tree.dirs ⊆ tree.dirs ∧ ∀ key ∈ s.connections,
      ∀ l ∈ s.tree.files, l.getLast? ∈ key.data.rcptList.map RcptNode.filename → l ∈ tree.files))
  | .accept .. | .datagram _ | .setMaxUsers _ | .setNewStatus _ => isTrue trivial

/-- The same system, which generates other names. -/
def renamingEnv (input : List UInt8) : Env :=
  { readyEnv input with uuid := fun k => ascii "ui" ++ List.replicate k 48 }

/-- Two clients send a line each, and are answered. -/
def bothAnswered (lines : List UInt8 × List UInt8) : List ServerEvent :=
  [.ready 0 .read (readyEnv lines.1), .ready 1 .read (renamingEnv lines.2), .ready 1 .write (readyEnv []),
    .ready 0 .write (readyEnv [])]

/-- Two clients send a message each to one recipient, at the same time. -/
def oneMailbox : List ServerEvent :=
  [.accept (readyEnv []) firstOutcome, .accept (readyEnv []) { firstOutcome with client := some 6 },
    .ready 0 .write (readyEnv []), .ready 1 .write (readyEnv [])] ++
  [(ascii "EHLO there\r\n", ascii "HELO here\r\n"),
    (ascii "MAIL FROM:<a@example.com>\r\n", ascii "MAIL FROM:<d@example.com>\r\n"),
    (ascii "RCPT TO:<b@smtpd.com>\r\n", ascii "RCPT TO:<b@smtpd.com>\r\n"),
    (ascii "DATA\r\n", ascii "DATA\r\n"), (ascii "hello\r\n.\r\n", ascii "bye\r\n.\r\n")].flatMap bothAnswered

theorem oneMailbox_obliging : ∀ e ∈ oneMailbox, e.Obliging := by
  have hready : ∀ {i op input}, (ServerEvent.ready i op (readyEnv input)).Obliging := fun _ => rfl
  have hother : ∀ {i op input}, (ServerEvent.ready i op (renamingEnv input)).Obliging := fun _ => rfl
  have hboth : ∀ lines, ∀ e ∈ bothAnswered lines, e.Obliging := by
    intro lines e he
    simp only [bothAnswered, List.mem_cons, List.not_mem_nil, or_false] at he
    rcases he with rfl | rfl | rfl | rfl
    · exact hready
    · exact hother
    · exact hready
    · exact hready
  intro e he
  rw [oneMailbox, List.mem_append] at he
  rcases he with he | he
  · simp only [List.mem_cons, List.not_mem_nil, or_false] at he
    rcases he with rfl | rfl | rfl | rfl
    · trivial
    · trivial
    · exact hready
    · exact hready
  · obtain ⟨lines, -, he⟩ := List.mem_flatMap.mp he
    exact hboth lines e he

theorem server_serves_one_mailbox :
    ∃ s, run serverStep startedServer oneMailbox = .ok s ∧ ∀ key ∈ s.connections,
      (key.HasFiles key.state → Filed s.tree key.data.rcptList) ∧ ∀ act ∈ key.os.trace, act.Confined := by
  have hchecked : Meets serverStep (fun s e => e.Suits s ∧ e.Named s) startedServer oneMailbox := by
    apply Meets.of_check
    decide +kernel
  have hobliging : Meets serverStep (fun _ e => e.Obliging) startedServer oneMailbox :=
    Meets.of_events fun e he _ => oneMailbox_obliging e he
  refine server_serves rfl rfl ⟨by decide, by decide⟩ ((hchecked.and hobliging).mono fun s e h => ?_)
  exact ⟨h.1.1, h.2, h.1.2⟩

end Script

end Smtpd
