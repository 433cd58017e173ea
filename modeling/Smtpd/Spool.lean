import Smtpd.MailStorage
import Smtpd.MailCommit

namespace Smtpd

open Checked CString Ledger Runs Shares Storage

/-- The server and the disk that it writes to. -/
structure Spool where
  server : Server
  disk : Disk (List UInt8) UInt8

/-- What a connection has done since it was accepted. -/
def Server.acts (s : Server) (i : Nat) : List Act := (s.connections[i]?.map fun key => key.os.trace).getD []

/-- What an event has the disk do. -/
def ServerEvent.operations (s s' : Server) : ServerEvent → List (Op (List UInt8) UInt8)
  | .ready i _ _ => Smtpd.operations none ((s'.acts i).drop (s.acts i).length)
  | _ => []

def spoolStep (p : Spool) (e : ServerEvent) : Result Spool := do
  let server ← serverStep p.server e
  .ok { server, disk := p.disk.replay (e.operations p.server server) }

/-- The names that the connections have given to files. -/
def Server.shares (s : Server) : List (List (List UInt8)) := s.connections.map fun key => paths key.os.trace

def Server.paths (s : Server) : List (List UInt8) := s.shares.flatten

/-- What the connection `i` reads of a message fits into the data buffer. -/
def ServerEvent.Fits (s : Server) (i : Nat) : ServerEvent → Prop
  | .ready j op env => j = i → ∀ key ∈ s.connections[j]?, (s.sync key).BodyFits (.ready op env)
  | _ => True

/-- A message of which files are being made was begun by a connection that ran until then. -/
def Key.Mailing (key : Key) (d : Disk (List UInt8) UInt8) : Prop :=
  ∃ before env start acts consumed, (∃ first es, Accepted first ∧ run sessionStep first es = .ok before) ∧
    before.data.transformation = key.data.transformation ∧ key.Filling d before env start acts consumed

/-- The files of the message that the connection `i` is taking are on the disk, and nothing else has come to be there
but what the connections have named. -/
structure Spool.Kept (first : Disk (List UInt8) UInt8) (i : Nat) (p : Spool) : Prop where
  sound : p.disk.Sound
  absent : ∀ name, first.names name = none → name ∉ p.server.paths → p.disk.names name = none
  mailing : ∀ key, p.server.connections[i]? = some key → key.HasFiles key.state → key.Mailing p.disk

section Steps

variable {d first : Disk (List UInt8) UInt8} {p p' : Spool} {s s' : Server} {key key' : Key} {e : ServerEvent}
  {i j : Nat} {op : Ready} {env : Env} {ops : List (Op (List UInt8) UInt8)} {reserved : List Nat}

theorem spoolStep_ok (h : spoolStep p e = .ok p') :
    serverStep p.server e = .ok p'.server ∧ p'.disk = p.disk.replay (e.operations p.server p'.server) := by
  obtain ⟨server, hstep, h⟩ := bind_ok h
  cases h
  exact ⟨hstep, rfl⟩

theorem acts_get (hi : s.connections[i]? = some key) : s.acts i = key.os.trace := by
  rw [Server.acts, hi, Option.map_some, Option.getD_some]

theorem shares_get (hi : s.connections[i]? = some key) : s.shares[i]? = some (paths key.os.trace) := by
  rw [Server.shares, List.getElem?_map, hi, Option.map_some]

/-- What a connection names is added to the names. -/
theorem set_paths {new : List Act} (hi : s.connections[i]? = some key) (htrace : key'.os.trace = key.os.trace ++ new)
    (h : s'.connections = s.connections.set i key') : s'.paths.Perm (s.paths ++ paths new) := by
  have hshares : s'.shares = s.shares.set i (paths key.os.trace ++ paths new) := by
    rw [Server.shares, h, List.map_set, htrace, paths_append]
    rfl
  rw [Server.paths, hshares]
  exact flatten_set (shares_get hi) (paths new)

/-- A new connection has done nothing. -/
def Key.Untouched (key : Key) : Prop := key.os.trace = [] ∧ ¬ key.HasFiles key.state

/-- What a step of the server does to the disk: nothing, or what one of the connections does. -/
theorem spoolStep_cases (hs : p.server.Grown) (h : spoolStep p e = .ok p') :
    (p'.disk = p.disk ∧ ∃ more : List Key, (∀ key ∈ more, key.Untouched) ∧
      p'.server.connections = p.server.connections ++ more) ∨
    ∃ i op env key key' new, e = .ready i op env ∧ p.server.connections[i]? = some key ∧
      sessionStep (p.server.sync key) (.ready op env) = .ok key' ∧ key'.os.trace = key.os.trace ++ new ∧
      p'.server.connections = p.server.connections.set i key' ∧ p'.disk = p.disk.replay (operations none new) := by
  obtain ⟨hstep, hdisk⟩ := spoolStep_ok h
  have hsame : p'.server.connections = p.server.connections → e.operations p.server p'.server = [] →
      p'.disk = p.disk ∧ ∃ more : List Key, (∀ key ∈ more, key.Untouched) ∧
        p'.server.connections = p.server.connections ++ more := by
    intro hconnections hnone
    refine ⟨by rw [hdisk, hnone]; rfl, [], fun _ hn => absurd hn List.not_mem_nil, ?_⟩
    rw [hconnections, List.append_nil]
  cases e with
  | accept env outcome =>
    obtain ⟨client, -, -, ⟨-, hconnections⟩ | ⟨-, key, os, hmore, -, hw⟩⟩ := serverStep_accept hstep
    · exact Or.inl (hsame hconnections rfl)
    · refine Or.inl ⟨hdisk, [key], fun key' hkey' => ?_, hmore⟩
      rw [List.mem_singleton.mp hkey']
      refine ⟨hw.fresh.trace, ?_⟩
      rw [Key.HasFiles, hw.fresh.sound.machine.state_eq]
      rcases hw.fresh.state with he | he <;> rw [he] <;> simp [SmtpState.HasFiles]
  | ready i op env =>
    rcases serverStep_ready hstep with ⟨-, hserver⟩ | ⟨key, key', hi, hsession, hserver⟩
    · refine Or.inl (hsame (by rw [hserver]) ?_)
      show operations none ((p'.server.acts i).drop (p.server.acts i).length) = []
      rw [hserver, List.drop_length]
      rfl
    · obtain ⟨key₀, es, ha, hrun⟩ := hs.sync hi
      obtain ⟨new, htrace, -⟩ := (sessionStep_uses (accepted_agrees ha hrun) hsession).touches
      have hconnections : p'.server.connections = p.server.connections.set i key' := by rw [hserver]
      have hi' : p'.server.connections[i]? = some key' := by
        rw [hconnections, List.getElem?_set_self (List.getElem?_eq_some_iff.mp hi).1]
      refine Or.inr ⟨i, op, env, key, key', new, rfl, hi, hsession, htrace, hconnections, ?_⟩
      have hnew : (p'.server.acts i).drop (p.server.acts i).length = new := by
        rw [acts_get hi', acts_get hi, htrace]
        exact List.drop_left
      rw [hdisk]
      show p.disk.replay (operations none ((p'.server.acts i).drop (p.server.acts i).length)) = _
      rw [hnew]
  | datagram e =>
    obtain ⟨management, -, hserver⟩ := bind_ok hstep
    exact Or.inl (hsame (by rw [← Except.ok.inj hserver]) rfl)
  | setMaxUsers | setNewStatus | elsewhere =>
    exact Or.inl (hsame (by rw [← Except.ok.inj hstep]) rfl)

/-- What two connections have named is different if no name was given twice. -/
theorem paths_disjoint (h : s.paths.Nodup) (hi : s.connections[i]? = some key) (hj : s.connections[j]? = some key')
    (hne : i ≠ j) : (paths key.os.trace).Disjoint (paths key'.os.trace) :=
  Apart.get_disjoint ⟨h, List.Subperm.refl _⟩ (shares_get hi) (shares_get hj) hne

/-- A file that is moved was created by the connection that moves it. -/
theorem filed_taken (hf : key.Filed) {name : List UInt8} (h : Move.free name ∈ filings key.os.trace) :
    Move.take name ∈ filings key.os.trace := by
  obtain ⟨left, hleft, -⟩ := hf.unmoved
  have hcount := balance_count hleft name
  have hfree := List.count_pos_iff.mpr h
  rw [Multiset.count_zero] at hcount
  exact List.count_pos_iff.mp (by omega)

theorem taken_paths {acts : List Act} {name : List UInt8} (h : Move.take name ∈ filings acts) : name ∈ paths acts := by
  obtain ⟨a, ha, hfiling⟩ := List.mem_filterMap.mp h
  refine List.mem_flatMap.mpr ⟨a, ha, ?_⟩
  cases a with
  | call c =>
    cases c with
    | openFile path =>
      cases hfiling
      exact List.mem_singleton.mpr rfl
    | _ => cases hfiling
  | _ => cases hfiling

theorem moved_paths {acts : List Act} {name : List UInt8} (h : name ∈ (renames acts).map Prod.snd) : name ∈ paths acts := by
  obtain ⟨⟨old, new⟩, hmem, rfl⟩ := List.mem_map.mp h
  obtain ⟨a, ha, hrename⟩ := List.mem_filterMap.mp hmem
  refine List.mem_flatMap.mpr ⟨a, ha, ?_⟩
  cases a with
  | call c =>
    cases c with
    | rename old new =>
      cases hrename
      exact List.mem_singleton.mpr rfl
    | _ => cases hrename
  | _ => cases hrename

/-- Where no name is given twice, a file is not created where one is moved to. -/
theorem moved_not_taken {acts : List Act} {name : List UInt8} (hnodup : (paths acts).Nodup)
    (h : name ∈ (renames acts).map Prod.snd) : Move.take name ∉ filings acts := by
  induction acts with
  | nil => cases h
  | cons a acts ih =>
    have hpaths : (paths ([a] ++ acts)).Nodup := hnodup
    rw [paths_append, List.nodup_append] at hpaths
    obtain ⟨-, hrest, hapart⟩ := hpaths
    have hmoved : name ∈ (renames ([a] ++ acts)).map Prod.snd := h
    show Move.take name ∉ filings ([a] ++ acts)
    rw [renames_append, List.map_append, List.mem_append] at hmoved
    rw [filings_append, List.mem_append, not_or]
    rcases hmoved with hmoved | hmoved
    · refine ⟨?_, fun htaken => hapart name (moved_paths hmoved) name (taken_paths htaken) rfl⟩
      cases a with
      | call c =>
        cases c with
        | rename old new => simp [filings, Act.filing]
        | _ => cases hmoved
      | _ => cases hmoved
    · exact ⟨fun htaken => hapart name (taken_paths htaken) name (moved_paths hmoved) rfl, ih hrest hmoved⟩

theorem Key.Filling.keep {before start : Key} {acts : List Act} {consumed : List UInt8} (hd : d.Sound)
    (hf : key.Filling d before env start acts consumed)
    (hnames : ∀ op ∈ ops, ∀ node ∈ key.data.rcptList, node.tmpPath ∉ op.names)
    (hfds : ∀ op ∈ ops, ∀ node ∈ key.data.rcptList, op.fd ≠ some node.handle) :
    key.Filling (d.replay ops) before env start acts consumed := by
  refine ⟨hf.begins, hf.message, hf.delivery, hf.named, fun hplain node hnode => ?_⟩
  exact (hf.files hplain node hnode).keepAll hd (fun op hop => hnames op hop node hnode)
    fun op hop => hfds op hop node hnode

/-- A connection that is looked at again has done what it had done. -/
theorem Key.Filling.sync {before start : Key} {acts : List Act} {consumed : List UInt8}
    (hf : key.Filling d before env start acts consumed) : (s.sync key).Filling d before env start acts consumed := by
  obtain ⟨fds, hdelivery, hmap, hfds⟩ := hf.delivery
  have hm := hf.message
  have hmessage : Message start acts consumed (s.sync key) :=
    ⟨hm.trace, hm.rcptList, hm.unclosed, hm.unfiled, hm.input, hm.waiting, hm.parsed, hm.first, hm.done⟩
  have hsame : Delivery start fds acts consumed (s.sync key) :=
    ⟨hdelivery.trace, hdelivery.rcpts, hdelivery.input, hdelivery.waiting, hdelivery.done, hdelivery.output⟩
  exact ⟨hf.begins, hmessage, ⟨fds, hsame, hmap, hfds⟩, hf.named, hf.files⟩

/-- The files of a message are among the descriptors that its connection holds. -/
theorem Key.Filling.held {before start : Key} {acts : List Act} {consumed : List UInt8}
    (hf : key.Filling d before env start acts consumed) (hreg : key.registered = true) :
    ∀ node ∈ key.data.rcptList, node.handle ∈ key.descriptors := by
  obtain ⟨fds, -, hmap, -⟩ := hf.delivery
  intro node hnode
  rw [← hf.message.rcptList] at hmap
  have hsome : ∃ fd, node.fileFd = some fd := by
    obtain ⟨fd, -, he⟩ := List.mem_map.mp (hmap ▸ List.mem_map_of_mem hnode : node.fileFd ∈ fds.map some)
    exact ⟨fd, he.symm⟩
  obtain ⟨fd, hfd⟩ := hsome
  rw [Key.descriptors, if_pos hreg]
  refine List.mem_cons_of_mem _ (List.mem_filterMap.mpr ⟨node, hnode, ?_⟩)
  rw [RcptNode.handle, hfd, Option.getD_some]

theorem registered_of_hasFiles (hs : s.Grown) (hi : s.connections[i]? = some key) (h : key.HasFiles key.state) :
    key.registered = true := by
  obtain ⟨key₀, es, ha, hrun⟩ := hs.sync hi
  refine (accepted_agrees ha hrun).registered.mpr ?_
  show key.state.interest ≠ .noop
  rcases h with he | he | ⟨he, -⟩ <;> rw [he] <;> decide

/-- The event of one connection leaves the files of the messages of the others as they are. -/
theorem Spool.Kept.others {other : Key} {new : List Act} (hp : p.Kept first j) (hs : p.server.Grown)
    (hholds : p.server.Holds reserved) (hi : p.server.connections[i]? = some key)
    (hj : p.server.connections[j]? = some other) (hne : i ≠ j)
    (hsession : sessionStep (p.server.sync key) (.ready op env) = .ok key')
    (htrace : key'.os.trace = key.os.trace ++ new) (hfiled : key'.Filed)
    (hapart : (paths key'.os.trace).Disjoint (paths other.os.trace)) (hhas : other.HasFiles other.state) :
    other.Mailing (p.disk.replay (operations none new)) := by
  obtain ⟨before, env', start, acts, consumed, hreached, hflag, hf⟩ := hp.mailing other hj hhas
  refine ⟨before, env', start, acts, consumed, hreached, hflag, hf.keep hp.sound (fun o ho node hnode => ?_)
    fun o ho node hnode hfd => ?_⟩
  · -- whatever is named is among the names of that connection
    intro hname
    obtain ⟨earlier, hnamed⟩ := hf.named
    have hother : node.tmpPath ∈ paths other.os.trace := by
      rw [hnamed]
      exact List.mem_append_right _ (List.mem_map_of_mem hnode)
    refine hapart ?_ hother
    rcases (operations_paths ho).2 _ hname with hn | hn | hn
    · cases hn
    · rw [htrace, paths_append]
      exact List.mem_append_right _ hn
    · refine taken_paths (filed_taken hfiled ?_)
      rw [htrace, filings_append]
      exact List.mem_append_right _ hn
  · obtain ⟨key₀, es, ha, hrun⟩ := hs.sync hi
    obtain ⟨acts', htrace', hacts⟩ := (sessionStep_uses (accepted_agrees ha hrun) hsession).touches
    obtain rfl : acts' = new := List.append_cancel_left (htrace'.symm.trans htrace)
    obtain ⟨a, hmem, htouch⟩ := operations_fd ho hfd
    have hother := List.mem_of_getElem? (held_get reserved hj)
    have hfree : ∀ x, x ∉ (p.server.sync key).os.fds → x ∉ other.descriptors :=
      fun x hx hheld => hx (hholds.mem hother hheld)
    have hown : ∀ x ∈ (p.server.sync key).descriptors, x ∉ other.descriptors := fun x hx hheld =>
      hholds.get_disjoint (held_get reserved hi) (held_get reserved hj) (Nat.succ_ne_succ_iff.mpr hne) hx hheld
    exact (hacts _ hfree hown).2.2 a hmem _ htouch (hf.held (registered_of_hasFiles hs hj hhas) node hnode)

/-- The event of a connection carries its own message on. -/
theorem Spool.Kept.own {new : List Act} (hp : p.Kept first i) (hs : p.server.Grown)
    (hi : p.server.connections[i]? = some key)
    (hsession : sessionStep (p.server.sync key) (.ready op env) = .ok key')
    (hfits : (p.server.sync key).BodyFits (.ready op env)) (htrace : key'.os.trace = key.os.trace ++ new)
    (hnew : ∀ name ∈ paths new, p.disk.names name = none) (hnodup : (paths new).Nodup) (hfiled : key'.Filed)
    (hhas : key'.HasFiles key'.state) : key'.Mailing (p.disk.replay (operations none new)) := by
  obtain ⟨key₀, es, ha, hrun⟩ := hs.sync hi
  have hk := accepted_agrees ha hrun
  have hflag' := sessionStep_transformation hk hsession
  by_cases hhad : key.HasFiles key.state
  · obtain ⟨before, env', start, acts, consumed, hreached, hflag, hf⟩ := hp.mailing key hi hhad
    obtain ⟨consumed', hf'⟩ := hf.sync.goes hk hp.sound hhad hhas hfits hsession htrace
    exact ⟨before, env', start, _, consumed', hreached, hflag.trans hflag'.symm, hf'⟩
  · obtain ⟨env', -, hbegins⟩ := sessionStep_begins hk hhad hhas hsession
    exact ⟨p.server.sync key, env', key', [], [], ⟨key₀, es, ha, hrun⟩, hflag'.symm,
      hbegins.filling hp.sound hfiled.names htrace hnew hnodup⟩

theorem Spool.Kept.ready {new : List Act} (hp : p.Kept first j) (hs : p.server.Grown) (hholds : p.server.Holds reserved)
    (hi : p.server.connections[i]? = some key)
    (hsession : sessionStep (p.server.sync key) (.ready op env) = .ok key')
    (hfits : i = j → (p.server.sync key).BodyFits (.ready op env)) (htrace : key'.os.trace = key.os.trace ++ new)
    (hserver : p'.server.connections = p.server.connections.set i key')
    (hdisk : p'.disk = p.disk.replay (operations none new))
    (hnew : ∀ name ∈ p'.server.paths, first.names name = none) (hnodup : p'.server.paths.Nodup) : p'.Kept first j := by
  obtain ⟨key₀, es, ha, hrun⟩ := hs.sync hi
  have hfiled : key'.Filed := accepted_filed ha (run_concat_ok.mpr ⟨_, hrun, hsession⟩)
  have hlt := (List.getElem?_eq_some_iff.mp hi).1
  have hi' : p'.server.connections[i]? = some key' := by
    rw [hserver, List.getElem?_set_self hlt]
  have hperm := set_paths hi htrace hserver
  obtain ⟨-, hnewnodup, hdisjoint⟩ := List.nodup_append.mp (hperm.nodup_iff.mp hnodup)
  have hfresh : ∀ name ∈ paths new, p.disk.names name = none := fun name hname =>
    hp.absent name (hnew name (hperm.mem_iff.mpr (List.mem_append_right _ hname)))
      fun hold => hdisjoint name hold name hname rfl
  refine ⟨hdisk ▸ hp.sound.replay _, fun name hfirst hnone => ?_, fun other hj hhas => ?_⟩
  · rw [hperm.mem_iff, List.mem_append, not_or] at hnone
    rw [hdisk]
    refine absent_keepAll (hp.absent name hfirst hnone.1) fun o ho hname => ?_
    exact hnone.2 (((operations_paths ho).1 name hname).resolve_left fun hn => nomatch hn)
  · rw [hdisk]
    by_cases hne : i = j
    · subst hne
      obtain rfl := Option.some.inj (hi'.symm.trans hj)
      exact hp.own hs hi hsession (hfits rfl) htrace hfresh hnewnodup hfiled hhas
    · have hj' : p.server.connections[j]? = some other := by
        rw [← hj, hserver, List.getElem?_set_ne hne]
      exact hp.others hs hholds hi hj' hne hsession htrace hfiled (paths_disjoint hnodup hi' hj hne) hhas

end Steps

section Runs

variable {first : Disk (List UInt8) UInt8} {p₀ p p' q : Spool} {key key' : Key} {e : ServerEvent}
  {es later : List ServerEvent} {i : Nat} {name : List UInt8} {reserved : List Nat}

/-- No name is given to a file that was there before. -/
theorem spoolStep_paths (hs : p.server.Grown) (h : spoolStep p e = .ok p') :
    ∃ more, p'.server.paths.Perm (p.server.paths ++ more) := by
  rcases spoolStep_cases hs h with
    ⟨-, more, hmore, hconnections⟩ | ⟨i, op, env, key, key', new, -, hi, -, htrace, hconnections, -⟩
  · refine ⟨(more.map fun key => paths key.os.trace).flatten, ?_⟩
    rw [Server.paths, Server.shares, hconnections, List.map_append, List.flatten_append]
    rfl
  · exact ⟨paths new, set_paths hi htrace hconnections⟩

theorem spoolStep_kept (hp : p.Kept first i) (hs : p.server.Grown) (hholds : p.server.Holds reserved)
    (hfits : e.Fits p.server i) (hnew : ∀ name ∈ p'.server.paths, first.names name = none)
    (hnodup : p'.server.paths.Nodup) (h : spoolStep p e = .ok p') : p'.Kept first i := by
  rcases spoolStep_cases hs h with
    ⟨hdisk, more, hmore, hconnections⟩ | ⟨j, op, env, key, key', new, rfl, hj, hsession, htrace, hconnections, hdisk⟩
  · refine ⟨hdisk ▸ hp.sound, fun name hfirst hnone => ?_, fun key hi hhas => ?_⟩
    · obtain ⟨named, hperm⟩ := spoolStep_paths hs h
      rw [hdisk]
      exact hp.absent name hfirst fun hold => hnone (hperm.mem_iff.mpr (List.mem_append_left _ hold))
    · rw [hconnections, List.getElem?_append] at hi
      split_ifs at hi with hlt
      · rw [hdisk]
        exact hp.mailing key hi hhas
      · exact absurd hhas (hmore key (List.mem_of_getElem? hi)).2
  · exact hp.ready hs hholds hj hsession (fun he => hfits he key hj) htrace hconnections hdisk hnew hnodup

/-- In every run in which no name is given twice the disk has what a connection has read of its message. -/
theorem spool_kept (h₀ : p₀.server.connections = []) (hfds : p₀.server.fds.Nodup) (hsound : p₀.disk.Sound)
    (hmeets : Meets spoolStep (fun p e => e.Undisturbed p.server ∧ e.Fits p.server i) p₀ es)
    (hrun : run spoolStep p₀ es = .ok p) :
    p.server.Grown ∧ p.disk.Sound ∧ p.server.Holds p₀.server.fds ∧
      ((∀ name ∈ p.server.paths, p₀.disk.names name = none) → p.server.paths.Nodup → p.Kept p₀.disk i) := by
  refine run_invariant (I := fun _ p => p.server.Grown ∧ p.disk.Sound ∧ p.server.Holds p₀.server.fds ∧
    ((∀ name ∈ p.server.paths, p₀.disk.names name = none) → p.server.paths.Nodup → p.Kept p₀.disk i)) ?_ ?_ hmeets hrun
  · refine ⟨fun key hkey => ?_, hsound, ⟨hfds, ?_⟩, fun _ _ => ⟨hsound, fun _ hnone _ => hnone, fun key hi => ?_⟩⟩
    · rw [h₀] at hkey
      cases hkey
    · rw [h₀, List.map_nil, List.flatten_cons, List.flatten_nil, List.append_nil]
    · rw [h₀] at hi
      cases hi
  · rintro xs e t u - ⟨hs, hd, hholds, hkept⟩ ⟨hfree, hfits⟩ hstep
    obtain ⟨hserver, hdisk⟩ := spoolStep_ok hstep
    obtain ⟨more, hperm⟩ := spoolStep_paths hs hstep
    refine ⟨serverStep_grown hs hserver, hdisk ▸ hd.replay _, serverStep_holds hs hholds hfree hserver,
      fun hnew hnodup => ?_⟩
    refine spoolStep_kept (hkept (fun name hname => ?_) ?_) hs hholds hfits hnew hnodup hstep
    · exact hnew name (hperm.mem_iff.mpr (List.mem_append_left _ hname))
    · exact (List.nodup_append.mp (hperm.nodup_iff.mp hnodup)).1

/-- A connection has moved a file to this path, and it is there. -/
structure Spool.Holds (p : Spool) (name content : List UInt8) : Prop where
  moved : ∃ (j : Nat) (key : Key), p.server.connections[j]? = some key ∧ name ∈ (renames key.os.trace).map Prod.snd
  stored : p.disk.Stored name content

theorem spoolStep_stores {content : List UInt8} (hs : p.server.Grown) (hd : p.disk.Sound)
    (hstored : p.Holds name content) (hnodup : p'.server.paths.Nodup) (h : spoolStep p e = .ok p') :
    p'.Holds name content := by
  obtain ⟨j, key₁, hj, hmoved⟩ := hstored.moved
  rcases spoolStep_cases hs h with
    ⟨hdisk, more, -, hconnections⟩ | ⟨i, op, env, key, key', new, -, hi, hsession, htrace, hconnections, hdisk⟩
  · refine ⟨⟨j, key₁, ?_, hmoved⟩, hdisk ▸ hstored.stored⟩
    rw [hconnections, List.getElem?_append_left (List.getElem?_eq_some_iff.mp hj).1]
    exact hj
  · have hi' : p'.server.connections[i]? = some key' := by
      rw [hconnections, List.getElem?_set_self (List.getElem?_eq_some_iff.mp hi).1]
    obtain ⟨key₀, es, ha, hrun⟩ := hs.sync hi
    have hfiled : key'.Filed := accepted_filed ha (run_concat_ok.mpr ⟨_, hrun, hsession⟩)
    have hperm := set_paths hi htrace hconnections
    have hold : name ∈ p.server.paths := List.mem_flatten.mpr
      ⟨_, List.mem_of_getElem? (shares_get hj), moved_paths hmoved⟩
    -- where the file is afterwards, and why the acts of the step do not concern it
    have hthere : (∃ key, p'.server.connections[j]? = some key ∧ name ∈ (renames key.os.trace).map Prod.snd) ∧
        Move.take name ∉ filings key'.os.trace := by
      by_cases hne : i = j
      · subst hne
        obtain rfl := Option.some.inj (hi.symm.trans hj)
        have hmoved' : name ∈ (renames key'.os.trace).map Prod.snd := by
          rw [htrace, renames_append, List.map_append]
          exact List.mem_append_left _ hmoved
        have hmine : (paths key'.os.trace).Nodup :=
          (List.nodup_flatten.mp hnodup).1 _ (List.mem_of_getElem? (shares_get hi'))
        exact ⟨⟨key', hi', hmoved'⟩, moved_not_taken hmine hmoved'⟩
      · have hj' : p'.server.connections[j]? = some key₁ := by
          rw [hconnections, List.getElem?_set_ne hne]
          exact hj
        exact ⟨⟨key₁, hj', hmoved⟩, fun htaken =>
          paths_disjoint hnodup hi' hj' hne (taken_paths htaken) (moved_paths hmoved)⟩
    refine ⟨⟨j, hthere.1⟩, ?_⟩
    rw [hdisk]
    refine hstored.stored.keepAll hd fun o ho hname => ?_
    rcases (operations_paths ho).2 name hname with hn | hn | hn
    · cases hn
    · exact (List.nodup_append.mp (hperm.nodup_iff.mp hnodup)).2.2 name hold name hn rfl
    · refine hthere.2 (filed_taken hfiled ?_)
      rw [htrace, filings_append]
      exact List.mem_append_right _ hn

/-- What is stored stays stored. -/
theorem spool_stores (hs : p.server.Grown) (hd : p.disk.Sound) (hrun : run spoolStep p later = .ok q) :
    (∃ more, q.server.paths.Perm (p.server.paths ++ more)) ∧
      (q.server.paths.Nodup → ∀ name content, p.Holds name content → q.Holds name content) := by
  refine (run_always (I := fun _ q => q.server.Grown ∧ q.disk.Sound ∧
    (∃ more, q.server.paths.Perm (p.server.paths ++ more)) ∧
      (q.server.paths.Nodup → ∀ name content, p.Holds name content → q.Holds name content)) ?_ ?_ hrun).2.2
  · refine ⟨hs, hd, ⟨[], ?_⟩, fun _ _ _ => id⟩
    rw [List.append_nil]
  · rintro xs e t u - ⟨hs, hd, ⟨more, hperm⟩, hstores⟩ hstep
    obtain ⟨hserver, hdisk⟩ := spoolStep_ok hstep
    obtain ⟨more', hperm'⟩ := spoolStep_paths hs hstep
    refine ⟨serverStep_grown hs hserver, hdisk ▸ hd.replay _, ⟨more ++ more', ?_⟩, fun hnodup name content hp => ?_⟩
    · rw [← List.append_assoc]
      exact hperm'.trans (hperm.append_right more')
    · have hnodup' := (List.nodup_append.mp (hperm'.nodup_iff.mp hnodup)).1
      exact spoolStep_stores hs hd (hstores hnodup' name content hp) hnodup hstep

/-- A connection that changes its state is the one that the event was for. -/
theorem spoolStep_at (hs : p.server.Grown) (h : spoolStep p e = .ok p') (hi : p.server.connections[i]? = some key)
    (hi' : p'.server.connections[i]? = some key') (hne : key'.state ≠ key.state) :
    ∃ op env new, sessionStep (p.server.sync key) (.ready op env) = .ok key' ∧ key'.os.trace = key.os.trace ++ new ∧
      p'.disk = p.disk.replay (operations none new) := by
  rcases spoolStep_cases hs h with
    ⟨-, more, -, hconnections⟩ | ⟨j, op, env, key₁, key₂, new, -, hj, hsession, htrace, hconnections, hdisk⟩
  · rw [hconnections, List.getElem?_append_left (List.getElem?_eq_some_iff.mp hi).1, hi] at hi'
    exact absurd (congrArg Key.state (Option.some.inj hi')).symm hne
  · rw [hconnections] at hi'
    by_cases hij : j = i
    · subst hij
      rw [List.getElem?_set_self (List.getElem?_eq_some_iff.mp hj).1] at hi'
      obtain rfl := Option.some.inj (hj.symm.trans hi)
      obtain rfl := Option.some.inj hi'
      exact ⟨op, env, new, hsession, htrace, hdisk⟩
    · rw [List.getElem?_set_ne hij, hi] at hi'
      exact absurd (congrArg Key.state (Option.some.inj hi')).symm hne

/-- Every message of a client that is not to be transformed, and whose own reads fit into the data buffer, is stored: once
it is answered, the file of every recipient has its first line and the message as it was received, without the delimiter,
whatever the other connections do meanwhile and whatever happens afterwards. -/
theorem message_stored (h₀ : p₀.server.connections = []) (hfds : p₀.server.fds.Nodup) (hsound : p₀.disk.Sound)
    (hmeets : Meets spoolStep (fun p e => e.Undisturbed p.server ∧ e.Fits p.server i) p₀ es)
    (hrun : run spoolStep p₀ es = .ok p) (hi : p.server.connections[i]? = some key) (hst : key.state = .mailInfoWrite)
    (hplain : key.data.transformation = false) (hstep : spoolStep p e = .ok p')
    (hi' : p'.server.connections[i]? = some key') (hst' : key'.state ≠ .mailInfoWrite)
    (hlater : run spoolStep p' later = .ok q) (hnew : ∀ name ∈ q.server.paths, p₀.disk.names name = none)
    (hnodup : q.server.paths.Nodup) :
    ∃ before env start acts body, (∃ first es, Accepted first ∧ run sessionStep first es = .ok before) ∧
      before.Begins env start ∧ Message start acts (body ++ delimiter) key ∧
      ∀ node ∈ key.data.rcptList,
        q.disk.content node.newPath = some (fromLine env before.data.mailfrom ++ body) := by
  obtain ⟨hs, hd, -, hkept⟩ := spool_kept h₀ hfds hsound hmeets hrun
  obtain ⟨hserver, hdisk'⟩ := spoolStep_ok hstep
  have hd' : p'.disk.Sound := hdisk' ▸ hd.replay _
  obtain ⟨op, env', new, hsession, htrace, hdisk⟩ := spoolStep_at hs hstep hi hi' (hst.symm ▸ hst')
  obtain ⟨key₀, es₀, ha, hrun₀⟩ := hs.sync hi
  have hk := accepted_agrees ha hrun₀
  -- the names that were given until now are among those of the whole run
  obtain ⟨more, hperm⟩ := spoolStep_paths hs hstep
  obtain ⟨⟨more', hperm'⟩, hstays⟩ := spool_stores (serverStep_grown hs hserver) hd' hlater
  have hnodup' := (List.nodup_append.mp (hperm'.nodup_iff.mp hnodup)).1
  have hmine : (paths key'.os.trace).Nodup := (List.nodup_flatten.mp hnodup').1 _ (List.mem_of_getElem? (shares_get hi'))
  obtain ⟨before, env, start, acts, consumed, hreached, hflag, hf⟩ :=
    (hkept (fun name hname => hnew name (hperm'.mem_iff.mpr (List.mem_append_left _
      (hperm.mem_iff.mpr (List.mem_append_left _ hname)))))
      (List.nodup_append.mp (hperm.nodup_iff.mp hnodup')).1).mailing key hi (Or.inr (Or.inl hst))
  obtain ⟨body, rfl, hstored⟩ := hf.sync.ends hk hd (hflag.trans hplain) hst hst' hsession htrace hmine
  refine ⟨before, env, start, acts, body, hreached, hf.begins, hf.message, fun node hnode => ?_⟩
  have hmoved : (node.tmpPath, node.newPath) ∈ renames key'.os.trace := by
    rcases sessionStep_files hk hsession with ⟨-, hstays⟩ | ⟨hread, -⟩ | ⟨-, hnext, hmoves⟩
    · exact absurd (hstays hst) hst'
    · cases hread.symm.trans hst
    · rw [(moves_commits hnext hmoves).moved]
      exact List.mem_append_right _ (List.mem_map_of_mem hnode)
  have hheld : p'.Holds node.newPath (fromLine env before.data.mailfrom ++ body) :=
    ⟨⟨i, key', hi', List.mem_map_of_mem hmoved⟩, hdisk ▸ hstored node hnode⟩
  exact (hstays hnodup _ _ hheld).stored.content

/-- The reads of a connection that do not fill the data buffer. -/
def ServerEvent.ReadsLittle (s : Server) (i : Nat) : ServerEvent → Prop
  | .ready j op env => j = i → ∀ key ∈ s.connections[j]?, (s.sync key).ReadsLittle (.ready op env)
  | _ => True

instance (s : Server) (i : Nat) : DecidablePred (ServerEvent.ReadsLittle s i)
  | .ready j op env =>
    inferInstanceAs (Decidable (j = i → ∀ key ∈ s.connections[j]?, (s.sync key).ReadsLittle (.ready op env)))
  | .accept .. | .datagram _ | .setMaxUsers _ | .setNewStatus _ | .elsewhere .. => isTrue trivial

theorem ServerEvent.ReadsLittle.fits {s : Server} (h : e.ReadsLittle s i) : e.Fits s i := by
  cases e with
  | ready j op env => exact fun he key hkey => (h he key hkey).fits
  | _ => trivial

def startedSpool : Spool := { server := startedServer, disk := Disk.empty }

/-- Two clients send their lines at the same time. -/
def bothSend (lines : List UInt8 × List UInt8) : List ServerEvent :=
  [.ready 0 .read (readyEnv lines.1), .ready 1 .read (readyEnv lines.2), .ready 1 .write (readyEnv []),
    .ready 0 .write (readyEnv [])]

/-- Up to the answers to their messages. -/
def twoMails : List ServerEvent :=
  [.accept (readyEnv []) firstOutcome, .accept (readyEnv []) { firstOutcome with client := some 6 },
    .ready 0 .write (readyEnv []), .ready 1 .write (readyEnv [])] ++
  [(ascii "EHLO there\r\n", ascii "HELO here\r\n"),
    (ascii "MAIL FROM:<a@example.com>\r\n", ascii "MAIL FROM:<d@example.com>\r\n"),
    (ascii "RCPT TO:<b@smtpd.com>\r\n", ascii "RCPT TO:<c@smtpd.com>\r\n"),
    (ascii "DATA\r\n", ascii "DATA\r\n")].flatMap bothSend ++
  [.ready 0 .read (readyEnv (ascii "hello\r\n.\r\n")), .ready 1 .read (readyEnv (ascii "bye\r\n.\r\n"))]

theorem message_stored_two_mails :
    ∃ p p' q key, run spoolStep startedSpool twoMails = .ok p ∧ spoolStep p (.ready 0 .write (readyEnv [])) = .ok p' ∧
      run spoolStep p' [.ready 1 .write (readyEnv [])] = .ok q ∧ p.server.connections[0]? = some key ∧
      key.data.rcptList ≠ [] ∧ ∃ before env start acts body,
        (∃ first es, Accepted first ∧ run sessionStep first es = .ok before) ∧ before.Begins env start ∧
        Message start acts (body ++ delimiter) key ∧ ∀ node ∈ key.data.rcptList,
          q.disk.content node.newPath = some (fromLine env before.data.mailfrom ++ body) := by
  have hbefore : ((run spoolStep startedSpool twoMails).toOption.any fun p =>
      decide (p.server.connections[0]?.any (fun key => decide (key.state = .mailInfoWrite ∧
        key.data.transformation = false ∧ key.data.rcptList ≠ [])) = true)) = true := by
    decide +kernel
  have hafter : ((run spoolStep startedSpool (twoMails ++ [.ready 0 .write (readyEnv [])])).toOption.any fun p =>
      decide (p.server.connections[0]?.any (fun key => decide (key.state ≠ .mailInfoWrite)) = true)) = true := by
    decide +kernel
  have hend : ((run spoolStep startedSpool (twoMails ++ [.ready 0 .write (readyEnv [])] ++
      [.ready 1 .write (readyEnv [])])).toOption.any fun q => decide q.server.paths.Nodup) = true := by
    decide +kernel
  have hmeets : Meets spoolStep (fun p e => e.Undisturbed p.server ∧ e.ReadsLittle p.server 0) startedSpool twoMails := by
    apply Meets.of_check
    decide +kernel
  obtain ⟨p, hp, hkey⟩ := ok_of_any hbefore
  obtain ⟨p₁, hp₁, hkey'⟩ := ok_of_any hafter
  obtain ⟨q, hq, hnodup⟩ := ok_of_any hend
  obtain ⟨p₂, hp₂, hstep⟩ := run_concat_ok.mp hp₁
  obtain rfl : p = p₂ := Except.ok.inj (hp.symm.trans hp₂)
  rw [run_append, hp₁] at hq
  obtain ⟨key, hi, hfound⟩ := (Option.any_eq_true _ _).mp hkey
  obtain ⟨key', hi', hfound'⟩ := (Option.any_eq_true _ _).mp hkey'
  obtain ⟨hst, hplain, hsome⟩ := of_decide_eq_true hfound
  exact ⟨p, p₁, q, key, hp, hstep, hq, hi, hsome,
    message_stored rfl (by decide) Disk.sound_empty (hmeets.mono fun _ _ hc => ⟨hc.1, hc.2.fits⟩) hp hi hst hplain hstep
      hi' (of_decide_eq_true hfound') hq (fun _ _ => rfl) hnodup⟩

end Runs

end Smtpd
