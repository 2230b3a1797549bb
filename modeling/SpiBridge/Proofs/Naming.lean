import SpiBridge.Proofs.Paths
/-!
# Nodes and names that change

Main statements: no path notices that a pipe changes or that a node without a name is there; a node
that is made enters its name, and is left without it when the name is taken away; and the status
that a path tells goes by where the path leads alone.
-/

namespace SpiBridge

namespace FileSystem

/-- No path leads on from such a number: neither a directory nor a link stands behind it. -/
structure Leaf (fs : FileSystem) (id : FileId) : Prop where
  directory : fs.directory? id = none
  link : fs.link? id = none

variable {fs after : FileSystem} {dir id : FileId} {name n path : String} {place : Place}
  {node old : Node} {mode holders : Nat} {buffer : PipeBuffer} {parent : FileId}
  {entries more : List (String × FileId)}

theorem Leaf.of_pipe (h : fs.node? id = some (.pipe mode buffer holders)) : fs.Leaf id :=
  ⟨by rw [directory?, h], by rw [link?, h]⟩

theorem Leaf.of_none (h : fs.node? id = none) : fs.Leaf id :=
  ⟨by rw [directory?, h], by rw [link?, h]⟩

theorem leaf_length : fs.Leaf fs.nodes.length :=
  .of_none (List.getElem?_eq_none (Nat.le_refl _))

theorem directory?_eq_some : fs.directory? id = some (parent, entries) ↔
    fs.node? id = some (.directory parent entries) := by
  unfold directory?
  split
  · rename_i hnode
    simp [hnode]
  · rename_i hnode
    simpa using hnode parent entries

theorem node?_lt (h : fs.node? id = some node) : id < fs.nodes.length :=
  (List.getElem?_eq_some_iff.1 h).1

structure SameAt (fs after : FileSystem) (id : FileId) : Prop where
  directory : after.directory? id = fs.directory? id
  link : after.link? id = fs.link? id

theorem SameAt.of_node? (h : after.node? id = fs.node? id) : fs.SameAt after id :=
  ⟨by rw [directory?, directory?, h], by rw [link?, link?, h]⟩

theorem SameAt.of_leaf (h : fs.Leaf id) (h' : after.Leaf id) : fs.SameAt after id :=
  ⟨h'.directory.trans h.directory.symm, h'.link.trans h.link.symm⟩

theorem SameAt.of_pipe_at {spot : FileId} (hspot : fs.Leaf spot)
    (h : after.node? id = if id = spot then some (.pipe mode buffer holders) else fs.node? id) :
    fs.SameAt after id := by
  by_cases hid : id = spot
  · subst hid
    rw [if_pos rfl] at h
    exact .of_leaf hspot (.of_pipe h)
  · rw [if_neg hid] at h
    exact .of_node? h

theorem SameWays.of_sameAt (hstart : after.directory = fs.directory)
    (h : ∀ id, fs.SameAt after id) : fs.SameWays after where
  start := hstart
  parent dir := by rw [parent?, parent?, (h dir).directory]
  entry dir _ := by rw [child?, child?, (h dir).directory]
  link id := (h id).link

theorem child?_of_directory? (h : fs.directory? dir = some (parent, entries)) :
    fs.child? dir name = entries.lookup name := by
  rw [child?, h]
  rfl

theorem Enters.of_sameAt (hstart : after.directory = fs.directory)
    (hdir : fs.directory? dir = some (parent, entries))
    (hdir' : after.directory? dir = some (parent, more))
    (hmissing : entries.lookup name = none) (hentered : more.lookup name = some id)
    (hothers : ∀ n, n ≠ name → more.lookup n = entries.lookup n)
    (hnodes : ∀ other, other ≠ dir → fs.SameAt after other) (hleaf : fs.Leaf id) :
    fs.Enters after dir name id where
  start := hstart
  parent d := by
    by_cases hd : d = dir
    · rw [parent?, parent?, hd, hdir, hdir', Option.map_some, Option.map_some]
    · rw [parent?, parent?, (hnodes d hd).directory]
  entry d n hname := by
    by_cases hd : d = dir
    · subst hd
      rw [child?_of_directory? hdir, child?_of_directory? hdir']
      exact hothers n fun hn => hname (by rw [hn])
    · rw [child?, child?, (hnodes d hd).directory]
  link other := by
    by_cases hother : other = dir
    · subst hother
      rw [link?, link?, directory?_eq_some.1 hdir, directory?_eq_some.1 hdir']
    · exact (hnodes other hother).link
  missing := (child?_of_directory? hdir).trans hmissing
  entered := (child?_of_directory? hdir').trans hentered
  leaf := by rw [parent?, hleaf.directory, Option.map_none]
  noLink := hleaf.link

theorem node?_setNode (fs : FileSystem) (id : FileId) (node : Node) (other : FileId) :
    (fs.setNode id node).node? other =
      if other = id then (fs.node? id).map fun _ => node else fs.node? other := by
  unfold setNode node?
  by_cases hother : other = id
  · subst hother
    rw [if_pos rfl, List.getElem?_set_self']
    rfl
  · rw [if_neg hother, List.getElem?_set_ne (Ne.symm hother)]

theorem setNode_setNode (fs : FileSystem) (id : FileId) (old node : Node) :
    (fs.setNode id old).setNode id node = fs.setNode id node := by
  unfold setNode
  rw [List.set_set]

theorem setNode_self (h : fs.node? id = some node) : fs.setNode id node = fs := by
  obtain ⟨hless, rfl⟩ := List.getElem?_eq_some_iff.1 h
  unfold setNode
  rw [List.set_getElem_self]

theorem sameWays_setNode (h : fs.node? id = some (.pipe mode buffer holders)) (mode' : Nat)
    (buffer' : PipeBuffer) (holders' : Nat) :
    fs.SameWays (fs.setNode id (.pipe mode' buffer' holders')) := by
  refine .of_sameAt rfl fun other => ?_
  have hnode := fs.node?_setNode id (.pipe mode' buffer' holders') other
  rw [h] at hnode
  exact .of_pipe_at (.of_pipe h) hnode

/-- A file system with one node more, which has no name yet. -/
def withNode (fs : FileSystem) (node : Node) : FileSystem :=
  { fs with nodes := fs.nodes ++ [node] }

theorem node?_withNode (fs : FileSystem) (node : Node) (other : FileId) :
    (fs.withNode node).node? other =
      if other = fs.nodes.length then some node else fs.node? other := by
  unfold withNode node?
  split_ifs with hother
  · rw [hother, List.getElem?_concat_length]
  · rcases Nat.lt_or_gt_of_ne hother with hless | hless
    · exact List.getElem?_append_left hless
    · rw [List.getElem?_eq_none (Nat.le_of_lt hless), List.getElem?_eq_none]
      rw [List.length_append]
      exact hless

theorem sameWays_withNode : fs.SameWays (fs.withNode (.pipe mode buffer holders)) :=
  .of_sameAt rfl fun other =>
    .of_pipe_at leaf_length (fs.node?_withNode (.pipe mode buffer holders) other)

theorem lookup_filter (entries : List (String × FileId)) (name n : String) :
    (entries.filter (·.1 ≠ name)).lookup n = if n = name then none else entries.lookup n := by
  induction entries with
  | nil => exact (ite_self none).symm
  | cons entry rest ih =>
    rcases entry with ⟨key, id⟩
    by_cases hkey : key = name
    · rw [List.filter_cons_of_neg (by simp [hkey]), ih, hkey, List.lookup_cons]
      split_ifs with hn
      · rfl
      · rw [beq_false_of_ne hn]
    · rw [List.filter_cons_of_pos (by simp [hkey]), List.lookup_cons, List.lookup_cons, ih]
      by_cases hn : n = key
      · simp [hn, hkey]
      · rw [beq_false_of_ne hn]

theorem directory?_withNode (hdir : fs.directory? dir = some (parent, entries)) :
    (fs.withNode node).directory? dir = some (parent, entries) := by
  have hless := node?_lt (directory?_eq_some.1 hdir)
  rw [directory?_eq_some, node?_withNode, if_neg (Nat.ne_of_lt hless)]
  exact directory?_eq_some.1 hdir

theorem create_eq (hdir : fs.directory? dir = some (parent, entries)) :
    (fs.create dir name node).2 = (fs.withNode node).setNode dir
      (.directory parent (entries.filter (·.1 ≠ name) ++ [(name, fs.nodes.length)])) := by
  show (fs.withNode node).bindName dir name fs.nodes.length = _
  rw [bindName, directory?_withNode hdir]

theorem unbindName_eq (hdir : fs.directory? dir = some (parent, entries)) :
    fs.unbindName dir name = fs.setNode dir (.directory parent (entries.filter (·.1 ≠ name))) := by
  rw [unbindName, hdir]

theorem node?_create (hdir : fs.directory? dir = some (parent, entries)) (name : String)
    (node : Node) (other : FileId) :
    (fs.create dir name node).2.node? other =
      if other = dir then some (.directory parent
        (entries.filter (·.1 ≠ name) ++ [(name, fs.nodes.length)]))
      else if other = fs.nodes.length then some node else fs.node? other := by
  rw [create_eq hdir, node?_setNode, directory?_eq_some.1 (directory?_withNode hdir),
    node?_withNode]
  rfl

theorem enters_create (hdir : fs.directory? dir = some (parent, entries))
    (hmissing : entries.lookup name = none) (mode : Nat) (buffer : PipeBuffer) (holders : Nat) :
    fs.Enters (fs.create dir name (.pipe mode buffer holders)).2 dir name fs.nodes.length := by
  have hnode := node?_create hdir name (.pipe mode buffer holders)
  refine .of_sameAt ?_ hdir (directory?_eq_some.2 (by rw [hnode, if_pos rfl])) hmissing ?_
    (fun n hn => ?_) (fun other hother => ?_) leaf_length
  · rw [create_eq hdir]
    rfl
  · rw [List.lookup_append, lookup_filter, if_pos rfl, Option.none_or, List.lookup_cons_self]
  · rw [List.lookup_append, lookup_filter, if_neg hn, List.lookup_cons, beq_false_of_ne hn]
    exact Option.or_none
  · exact .of_pipe_at leaf_length ((hnode other).trans (if_neg hother))

theorem enters_unbindName (hdir : fs.directory? dir = some (parent, entries))
    (hentry : entries.lookup name = some id) (hleaf : fs.Leaf id) :
    (fs.unbindName dir name).Enters fs dir name id := by
  have hnode : ∀ other, (fs.unbindName dir name).node? other = if other = dir then
      some (.directory parent (entries.filter (·.1 ≠ name))) else fs.node? other := by
    intro other
    rw [unbindName_eq hdir, node?_setNode, directory?_eq_some.1 hdir]
    rfl
  have hsame : ∀ other, other ≠ dir → (fs.unbindName dir name).node? other = fs.node? other :=
    fun other hother => by rw [hnode, if_neg hother]
  have hne : id ≠ dir := by
    rintro rfl
    rw [hleaf.directory] at hdir
    cases hdir
  refine .of_sameAt ?_ (directory?_eq_some.2 (by rw [hnode, if_pos rfl])) hdir ?_ hentry
    (fun n hn => ?_) (fun other hother => .of_node? (hsame other hother).symm) ?_
  · rw [unbindName_eq hdir]
    rfl
  · rw [lookup_filter, if_pos rfl]
  · rw [lookup_filter, if_neg hn]
  · have hsame := SameAt.of_node? (hsame id hne)
    exact ⟨hsame.directory.trans hleaf.directory, hsame.link.trans hleaf.link⟩

theorem unbindName_create (hdir : fs.directory? dir = some (parent, entries))
    (hmissing : entries.lookup name = none) :
    (fs.create dir name node).2.unbindName dir name = fs.withNode node := by
  have hgiven : (fs.create dir name node).2.directory? dir =
      some (parent, entries.filter (·.1 ≠ name) ++ [(name, fs.nodes.length)]) :=
    directory?_eq_some.2 (by rw [node?_create hdir, if_pos rfl])
  have hnobody : entries.filter (·.1 ≠ name) = entries := by
    rw [List.filter_eq_self]
    intro entry hentry
    have hother := List.lookup_eq_none_iff.1 hmissing entry hentry
    rw [bne_iff_ne] at hother
    exact decide_eq_true hother.symm
  rw [unbindName_eq hgiven, create_eq hdir, List.filter_append, hnobody, hnobody]
  have htaken : [(name, fs.nodes.length)].filter (·.1 ≠ name) = [] := by simp
  rw [htaken, List.append_nil, setNode_setNode]
  exact setNode_self (directory?_eq_some.1 (directory?_withNode hdir))

theorem setNode_create (hdir : fs.directory? dir = some (parent, entries)) :
    (fs.create dir name old).2.setNode fs.nodes.length node = (fs.create dir name node).2 := by
  have hless := node?_lt (directory?_eq_some.1 hdir)
  have hset : (fs.withNode old).setNode fs.nodes.length node = fs.withNode node := by
    unfold setNode withNode
    rw [List.set_append_right _ _ (Nat.le_refl _), Nat.sub_self]
    rfl
  rw [create_eq hdir, create_eq hdir, ← hset]
  unfold setNode
  rw [List.set_comm _ _ (Nat.ne_of_lt hless)]

/-! ## What a path tells -/

def mannerOf (path : String) (follow : Bool) : Manner :=
  if follow || endsInSlash path then .node else .entry

def findAt (fs : FileSystem) : Place → Except IoError (FileId × Node)
  | .absent _ _ _ => .error .noEntry
  | .existing id _ slash =>
    match fs.node? id with
    | none => .error .noEntry
    | some node => if slash && !node.isDirectory then .error .notADirectory else .ok (id, node)

theorem find_eq (fs : FileSystem) (path : String) (follow : Bool) :
    fs.find path follow = (fs.locate path (mannerOf path follow)).bind fs.findAt := by
  unfold find mannerOf
  rcases fs.locate path (if follow || endsInSlash path then .node else .entry) with e | place
  · rfl
  · cases place <;> rfl

theorem findAt_eq_ok_iff : fs.findAt place = .ok (id, node) ↔
    ∃ entry slash, place = .existing id entry slash ∧ fs.node? id = some node ∧
      (slash = true → node.isDirectory = true) := by
  rcases place with ⟨other, entry, slash⟩ | ⟨d, n, slash⟩
  · unfold findAt
    constructor
    · intro h
      rcases hnode : fs.node? other with _ | found <;> simp only [hnode] at h
      · cases h
      · split_ifs at h with hslash
        cases h
        exact ⟨entry, slash, rfl, hnode, by simpa using hslash⟩
    · rintro ⟨entry', slash', hplace, hnode, hslash⟩
      cases hplace
      simp only [hnode]
      rw [if_neg (by simpa using hslash)]
  · simp [findAt]

theorem find_eq_ok_iff {follow : Bool} : fs.find path follow = .ok (id, node) ↔
    ∃ entry slash, fs.locate path (mannerOf path follow) = .ok (.existing id entry slash) ∧
      fs.node? id = some node ∧ (slash = true → node.isDirectory = true) := by
  rw [find_eq]
  rcases fs.locate path (mannerOf path follow) with e | place
  · simp [Except.bind]
  · simp only [Except.bind, findAt_eq_ok_iff, Except.ok.injEq]

theorem find_of_absent {follow : Bool} {slash : Bool}
    (h : fs.locate path (mannerOf path follow) = .ok (.absent dir name slash)) :
    fs.find path follow = .error .noEntry := by
  rw [find_eq, h]
  rfl

theorem find_pipe (h : fs.find path false = .ok (id, .pipe mode buffer holders)) (follow : Bool) :
    endsInSlash path = false ∧ fs.find path follow = .ok (id, .pipe mode buffer holders) := by
  obtain ⟨entry, slash, hlocate, hnode, hslash⟩ := find_eq_ok_iff.1 h
  have hslash : slash = false := by
    rw [← Bool.not_eq_true]
    exact fun hslash' => absurd (hslash hslash') (by simp [Node.isDirectory])
  subst hslash
  have hends := endsInSlash_of_locate hlocate
  refine ⟨hends, find_eq_ok_iff.2 ⟨entry, false, ?_, hnode, nofun⟩⟩
  cases follow with
  | false => exact hlocate
  | true =>
    rw [mannerOf, hends] at hlocate
    refine locate_node_of_entry hlocate fun other entry' slash' hplace => ?_
    cases hplace
    exact (Leaf.of_pipe hnode).link

theorem status_of_find (h : fs.find path false = .ok (id, node)) :
    fs.status path = .ok (id, statusOf node) := by
  rw [status, h]
  rfl

theorem find_of_status {status : Status} (h : fs.status path = .ok (id, status)) :
    ∃ node, fs.find path false = .ok (id, node) ∧ statusOf node = status := by
  unfold FileSystem.status at h
  rcases hfind : fs.find path false with e | ⟨other, node⟩ <;> rw [hfind] at h
  · cases h
  · obtain ⟨rfl, hstatus⟩ := Prod.mk.inj (Except.ok.inj h)
    exact ⟨node, rfl, hstatus⟩

def SameStatus (fs after : FileSystem) (id : FileId) : Prop :=
  (after.node? id).map statusOf = (fs.node? id).map statusOf

theorem isDirectory_eq (node : Node) : node.isDirectory = (statusOf node == .directory) := by
  cases node <;> rfl

theorem status_congr
    (hlocate : after.locate path (mannerOf path false) = fs.locate path (mannerOf path false))
    (hnode : ∀ id entry slash,
      fs.locate path (mannerOf path false) = .ok (.existing id entry slash) →
        fs.SameStatus after id) :
    after.status path = fs.status path := by
  unfold status
  rw [find_eq, find_eq, hlocate]
  rcases hplace : fs.locate path (mannerOf path false) with e | place
  · rfl
  rcases place with ⟨id, entry, slash⟩ | ⟨d, n, slash⟩
  · have hsame := hnode id entry slash hplace
    unfold SameStatus at hsame
    unfold Except.bind findAt
    rcases hnode : fs.node? id with _ | node <;> rcases hnode' : after.node? id with _ | node' <;>
      rw [hnode, hnode'] at hsame
    · simp only [hnode, hnode']
    · cases hsame
    · cases hsame
    · have hstatus : statusOf node' = statusOf node := Option.some.inj hsame
      simp only [hnode, hnode', isDirectory_eq, hstatus]
      split_ifs
      · rfl
      · simp only [Except.map, hstatus]
  · rfl

end FileSystem

end SpiBridge
