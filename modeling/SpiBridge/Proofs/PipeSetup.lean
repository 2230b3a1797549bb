import SpiBridge.Device.NamedPipe
import SpiBridge.Proofs.Naming
/-!
# Opening and closing named pipes

A pipe that is missing is made, given its mode, opened and identified, and each of these calls can
fail after the ones before it changed the files.  Main statement: whatever fails leaves all files
as they were, but for a pipe that was made and then could not be opened: it stays; and closing
removes the name of a pipe if and only if the name still stands for the file that was opened.
-/

namespace SpiBridge

/-- A node as it is once nobody holds it: the bytes in a pipe are lost with its last holder. -/
def Node.idle : Node → Node
  | pipe mode _ 0 => pipe mode {} 0
  | node => node

namespace FileSystem

/-- Every path leads where it led, and every node is as it was. -/
structure Keeps (fs after : FileSystem) : Prop where
  locate : ∀ path manner, after.locate path manner = fs.locate path manner
  node : ∀ id node, fs.node? id = some node →
    ∃ now, after.node? id = some now ∧ now.idle = node.idle

variable {fs mid after : FileSystem} {path : String} {dir id : FileId} {name : String}
  {mode bits umask holders : Nat} {buffer : PipeBuffer}

theorem Keeps.refl (fs : FileSystem) : fs.Keeps fs :=
  ⟨fun _ _ => rfl, fun _ node h => ⟨node, h, rfl⟩⟩

theorem keeps_withNode : fs.Keeps (fs.withNode (.pipe mode buffer holders)) := by
  refine ⟨fun path manner => sameWays_withNode.locate_eq, fun id node h => ⟨node, ?_, rfl⟩⟩
  rw [node?_withNode, if_neg (Nat.ne_of_lt (node?_lt h)), h]

theorem keeps_setNode (h : fs.node? id = some (.pipe mode buffer holders)) :
    fs.Keeps (fs.setNode id (.pipe mode (if holders = 0 then {} else buffer) holders)) := by
  refine ⟨fun path manner => (sameWays_setNode h _ _ _).locate_eq, fun other node hnode => ?_⟩
  rw [node?_setNode]
  by_cases hother : other = id
  · subst hother
    rw [h] at hnode
    cases hnode
    refine ⟨_, by rw [if_pos rfl, h]; rfl, ?_⟩
    cases holders <;> rfl
  · exact ⟨node, by rw [if_neg hother, hnode], rfl⟩

theorem status_setNode (h : fs.node? id = some (.pipe mode buffer holders)) (buffer' : PipeBuffer)
    (holders' : Nat) (path : String) :
    (fs.setNode id (.pipe mode buffer' holders')).status path = fs.status path := by
  refine status_congr (sameWays_setNode h _ _ _).locate_eq fun other _ _ _ => ?_
  unfold SameStatus
  rw [node?_setNode]
  by_cases hother : other = id
  · rw [if_pos hother, hother, h]
    rfl
  · rw [if_neg hother]

theorem status_closeFile (fs : FileSystem) (id : FileId) (path : String) :
    (fs.closeFile id).status path = fs.status path := by
  unfold closeFile
  split
  · rename_i hnode
    exact status_setNode hnode _ _ path
  · rfl

/-! ## A pipe under a missing name -/

section Missing

variable (hmissing : fs.locate path .entry = .ok (.absent dir name false))

include hmissing

theorem directory?_of_absent :
    ∃ parent entries, fs.directory? dir = some (parent, entries) ∧ entries.lookup name = none := by
  obtain ⟨hentry, hparent⟩ := tells_of_locate hmissing
  rcases hdir : fs.directory? dir with _ | ⟨parent, entries⟩
  · rw [parent?, hdir] at hparent
    cases hparent
  · rw [child?_of_directory? hdir] at hentry
    exact ⟨parent, entries, rfl, hentry⟩

theorem locate_of_absent (follow : Bool) :
    fs.locate path (mannerOf path follow) = .ok (.absent dir name false) := by
  unfold mannerOf
  split
  · exact locate_node_of_entry hmissing nofun
  · exact hmissing

theorem status_of_absent : fs.status path = .error .noEntry := by
  rw [status, find_of_absent (locate_of_absent hmissing false)]
  rfl

theorem find_create (mode : Nat) (buffer : PipeBuffer) (holders : Nat) (follow : Bool) :
    (fs.create dir name (.pipe mode buffer holders)).2.find path follow =
      .ok (fs.nodes.length, .pipe mode buffer holders) := by
  obtain ⟨parent, entries, hdir, hlookup⟩ := directory?_of_absent hmissing
  have henters := enters_create hdir hlookup mode buffer holders
  have hlocate := henters.locate_of_absent (locate_of_absent hmissing follow)
  refine find_eq_ok_iff.2 ⟨_, _, hlocate, ?_, nofun⟩
  have hless := node?_lt (directory?_eq_some.1 hdir)
  rw [node?_create hdir, if_neg (Nat.ne_of_gt hless), if_pos rfl]

theorem removeFile_create :
    (fs.create dir name (.pipe mode buffer holders)).2.removeFile path =
      (.ok (), fs.withNode (.pipe mode buffer holders)) := by
  obtain ⟨parent, entries, hdir, hlookup⟩ := directory?_of_absent hmissing
  have henters := enters_create hdir hlookup mode buffer holders
  obtain ⟨-, -, -, hnode, -⟩ := find_eq_ok_iff.1 (find_create hmissing mode buffer holders false)
  unfold removeFile
  simp only [henters.locate_of_absent hmissing]
  rw [(Leaf.of_pipe hnode).directory, unbindName_create hdir hlookup]
  rfl

theorem setMode_create :
    (fs.create dir name (.pipe bits buffer holders)).2.setMode path mode =
      (.ok (), (fs.create dir name (.pipe (mode % modeBits) buffer holders)).2) := by
  obtain ⟨parent, entries, hdir, -⟩ := directory?_of_absent hmissing
  unfold setMode
  simp only [find_create hmissing]
  rw [setNode_create hdir]

end Missing

theorem openFile_cases (hfind : fs.find path false = .ok (id, .pipe bits buffer holders)) :
    (∃ e, fs.openFile path = (.error e, fs)) ∨
      fs.openFile path = (.ok id, fs.setNode id (.pipe bits buffer (holders + 1))) := by
  unfold openFile
  simp only [(find_pipe hfind true).2, Node.isDirectory]
  by_cases hpermits : permits (.pipe bits buffer holders) (readBit + writeBit) = true
  · exact .inr (by simp [hpermits])
  · exact .inl ⟨.permissionDenied, by simp [hpermits]⟩

theorem closeFile_setNode (hnode : fs.node? id = some (.pipe bits buffer holders)) :
    (fs.setNode id (.pipe bits buffer (holders + 1))).closeFile id =
      fs.setNode id (.pipe bits (if holders = 0 then {} else buffer) holders) := by
  have hheld : (fs.setNode id (.pipe bits buffer (holders + 1))).node? id =
      some (.pipe bits buffer (holders + 1)) := by
    rw [node?_setNode, if_pos rfl, hnode]
    rfl
  unfold closeFile
  simp only [hheld, setNode_setNode, Nat.add_sub_cancel]
  cases holders <;> simp

theorem makePipe_cases (fs : FileSystem) (path : String) (mode umask : Nat) :
    (∃ e, fs.makePipe path mode umask = (.error e, fs)) ∨
      ∃ dir name bits, fs.locate path .entry = .ok (.absent dir name false) ∧
        fs.makePipe path mode umask = (.ok (), (fs.create dir name (.pipe bits {} 0)).2) := by
  unfold makePipe
  split_ifs
  · unfold makeEntry
    rcases hlocate : fs.locate path .entry with e | place
    · exact .inl ⟨e, rfl⟩
    rcases place with ⟨_, _, _⟩ | ⟨dir, name, slash⟩
    · exact .inl ⟨_, rfl⟩
    cases slash with
    | true => exact .inl ⟨_, rfl⟩
    | false => exact .inr ⟨dir, name, _, rfl, rfl⟩
  · exact .inl ⟨_, rfl⟩

/-! ## A pipe under its name -/

/-- The last name of a path, which is no link to follow, stands for a pipe. -/
def NamesPipe (fs : FileSystem) (path : String) (id : FileId) : Prop :=
  ∃ dir name mode buffer holders,
    fs.locate path .entry = .ok (.existing id (some (dir, name)) false) ∧
      fs.node? id = some (.pipe mode buffer holders)

theorem NamesPipe.status (h : fs.NamesPipe path id) :
    ∃ mode, fs.status path = .ok (id, .pipe mode) := by
  obtain ⟨dir, name, mode, buffer, holders, hlocate, hnode⟩ := h
  refine ⟨mode, status_of_find (find_eq_ok_iff.2 ⟨some (dir, name), false, ?_, hnode, nofun⟩)⟩
  rw [mannerOf, endsInSlash_of_locate hlocate]
  exact hlocate

theorem sameStatus_unbindName (fs : FileSystem) (dir : FileId) (name : String) (other : FileId) :
    fs.SameStatus (fs.unbindName dir name) other := by
  unfold SameStatus unbindName
  split
  · rfl
  · rename_i parent entries hdir
    rw [node?_setNode]
    by_cases hother : other = dir
    · rw [if_pos hother, hother, directory?_eq_some.1 hdir]
      rfl
    · rw [if_neg hother]

theorem NamesPipe.removeFile (h : fs.NamesPipe path id) :
    (fs.removeFile path).2.status path = .error .noEntry ∧
      ∀ other node, fs.status other = .ok node → node.1 ≠ id →
        (fs.removeFile path).2.status other = .ok node := by
  obtain ⟨dir, name, mode, buffer, holders, hlocate, hnode⟩ := h
  have hleaf := Leaf.of_pipe hnode
  have hremove : (fs.removeFile path).2 = fs.unbindName dir name := by
    unfold FileSystem.removeFile
    simp only [hlocate, hleaf.directory]
    rfl
  obtain ⟨parent, entries, hdir, hentry⟩ :
      ∃ parent entries, fs.directory? dir = some (parent, entries) ∧
        entries.lookup name = some id := by
    have hentry : fs.child? dir name = some id := tells_of_locate hlocate
    rcases hdir : fs.directory? dir with _ | ⟨parent, entries⟩
    · rw [child?, hdir] at hentry
      cases hentry
    · rw [child?_of_directory? hdir] at hentry
      exact ⟨parent, entries, rfl, hentry⟩
  have henters := enters_unbindName hdir hentry hleaf
  rw [hremove]
  constructor
  · rcases henters.locate_cases hlocate with ⟨-, hne⟩ | ⟨_, hplace, habsent⟩
    · exact absurd rfl (hne false)
    · cases hplace
      exact status_of_absent habsent
  · rintro other ⟨id', status⟩ hstatus hne
    obtain ⟨node, hfind, -⟩ := find_of_status hstatus
    obtain ⟨entry, slash, hlocate, -, -⟩ := find_eq_ok_iff.1 hfind
    rw [← hstatus]
    refine status_congr ?_ fun x _ _ _ => fs.sameStatus_unbindName dir name x
    rcases henters.locate_cases hlocate with ⟨hsame, -⟩ | ⟨_, hplace, -⟩
    · rw [hsame, hlocate]
    · cases hplace
      exact absurd rfl hne

end FileSystem

namespace NamedPipe

open FileSystem

variable {fs mid after : FileSystem} {path : String} {id : FileId} {mode bits umask holders : Nat}
  {buffer : PipeBuffer} {m : Mishaps}

/-- Making a pipe fails with all files as they were, but for a node without a name, or there is a
pipe of the given mode under the missing name. -/
theorem make_cases (fs : FileSystem) (path : String) (mode umask : Nat) (m : Mishaps) :
    (∃ e after, make fs path mode umask m = (.error (.createPipe path e), after) ∧
      fs.Keeps after ∧ after.status path = fs.status path) ∨
    ∃ dir name, fs.locate path .entry = .ok (.absent dir name false) ∧
      make fs path mode umask m =
        (.ok (), (fs.create dir name (.pipe (mode % modeBits) {} 0)).2) := by
  unfold make attempt
  rcases m.makePipe with _ | e
  · rcases fs.makePipe_cases path mode umask with ⟨e, hmake⟩ | ⟨dir, name, bits, hmissing, hmake⟩
    · exact .inl ⟨e, fs, by rw [hmake], .refl fs, rfl⟩
    · rw [hmake]
      rcases m.setMode with _ | e
      · exact .inr ⟨dir, name, hmissing, by simp only [setMode_create hmissing]⟩
      · refine .inl ⟨e, fs.withNode (.pipe bits {} 0), ?_, keeps_withNode, ?_⟩
        · simp only [removeFile_create hmissing]
        · refine status_congr sameWays_withNode.locate_eq fun id entry slash hplace => ?_
          rw [locate_of_absent hmissing] at hplace
          cases hplace
  · exact .inl ⟨e, fs, rfl, .refl fs, rfl⟩

theorem provide_cases (fs : FileSystem) (path : String) (mode umask : Nat) (m : Mishaps) :
    (∃ e after, provide fs path mode umask m = (.error e, after) ∧
      (∀ cause, e ≠ .openFile path cause) ∧ fs.Keeps after ∧ after.status path = fs.status path) ∨
    (∃ id bits buffer holders, fs.find path false = .ok (id, .pipe bits buffer holders) ∧
      provide fs path mode umask m = (.ok (), fs)) ∨
    ∃ dir name, fs.locate path .entry = .ok (.absent dir name false) ∧
      provide fs path mode umask m =
        (.ok (), (fs.create dir name (.pipe (mode % modeBits) {} 0)).2) := by
  unfold provide
  rcases hstatus : (attempt m.status fs (fs.status path, fs)).1 with e | ⟨id, status⟩
  · simp only
    split_ifs
    · rcases make_cases fs path mode umask m with
        ⟨e, after, hmake, hkeeps⟩ | ⟨dir, name, hmissing, hmake⟩
      · exact .inl ⟨_, after, hmake, nofun, hkeeps⟩
      · exact .inr (.inr ⟨dir, name, hmissing, hmake⟩)
    · exact .inl ⟨_, fs, rfl, nofun, .refl fs, rfl⟩
  · cases status with
    | pipe bits =>
      have htold : fs.status path = .ok (id, .pipe bits) := by
        unfold attempt at hstatus
        split at hstatus
        · cases hstatus
        · exact hstatus
      obtain ⟨node, hfind, hpipe⟩ := find_of_status htold
      cases node <;> cases hpipe
      exact .inr (.inl ⟨id, bits, _, _, hfind, rfl⟩)
    | file | directory | link => exact .inl ⟨_, fs, rfl, nofun, .refl fs, rfl⟩

theorem openAt_cases (hprovide : provide fs path mode umask m = (.ok (), mid))
    (hfind : mid.find path false = .ok (id, .pipe bits buffer holders)) :
    (∃ e after, openAt fs path mode umask m = (.error (.openFile path e), after) ∧
      (after = mid ∨ after =
        mid.setNode id (.pipe bits (if holders = 0 then {} else buffer) holders))) ∨
    openAt fs path mode umask m =
      (.ok ⟨path, id⟩, mid.setNode id (.pipe bits buffer (holders + 1))) := by
  obtain ⟨-, -, -, hnode, -⟩ := find_eq_ok_iff.1 hfind
  unfold openAt attempt
  simp only [hprovide]
  rcases m.openFile with _ | e
  · rcases openFile_cases hfind with ⟨e, hopen⟩ | hopen <;> simp only [hopen]
    · exact .inl ⟨e, mid, rfl, .inl rfl⟩
    rcases m.identify with _ | e
    · exact .inr rfl
    · exact .inl ⟨e, _, rfl, .inr (closeFile_setNode hnode)⟩
  · exact .inl ⟨e, mid, rfl, .inl rfl⟩

theorem openAt_outcome (fs : FileSystem) (path : String) (mode umask : Nat) (m : Mishaps) :
    (∃ e after, openAt fs path mode umask m = (.error e, after) ∧ fs.Keeps after ∧
      after.status path = fs.status path ∧
      ((∃ cause, e = .openFile path cause) → fs.status path ≠ .error .noEntry)) ∨
    (∃ dir name, fs.locate path .entry = .ok (.absent dir name false) ∧
      ((∃ cause, openAt fs path mode umask m = (.error (.openFile path cause),
          (fs.create dir name (.pipe (mode % modeBits) {} 0)).2)) ∨
        openAt fs path mode umask m = (.ok ⟨path, fs.nodes.length⟩,
          (fs.create dir name (.pipe (mode % modeBits) {} 1)).2))) ∨
    ∃ id bits after, openAt fs path mode umask m = (.ok ⟨path, id⟩, after) ∧
      fs.status path = .ok (id, .pipe bits) ∧ after.status path = .ok (id, .pipe bits) := by
  rcases provide_cases fs path mode umask m with
    ⟨e, after, hprovide, hother, hkeeps, hstatus⟩ |
    ⟨id, bits, buffer, holders, hfind, hprovide⟩ | ⟨dir, name, hmissing, hprovide⟩
  · refine .inl ⟨e, after, ?_, hkeeps, hstatus, fun hcause => ?_⟩
    · rw [openAt, hprovide]
    · obtain ⟨cause, rfl⟩ := hcause
      exact absurd rfl (hother cause)
  · obtain ⟨-, -, -, hnode, -⟩ := find_eq_ok_iff.1 hfind
    have hstatus : fs.status path = .ok (id, .pipe bits) := status_of_find hfind
    have hthere : fs.status path ≠ .error .noEntry := by
      rw [hstatus]
      nofun
    rcases openAt_cases hprovide hfind with ⟨e, after, hopen, rfl | rfl⟩ | hopen
    · exact .inl ⟨_, _, hopen, .refl _, rfl, fun _ => hthere⟩
    · exact .inl ⟨_, _, hopen, keeps_setNode hnode, status_setNode hnode _ _ path, fun _ => hthere⟩
    · refine .inr (.inr ⟨id, bits, _, hopen, hstatus, ?_⟩)
      rw [status_setNode hnode, hstatus]
  · obtain ⟨parent, entries, hdir, -⟩ := directory?_of_absent hmissing
    refine .inr (.inl ⟨dir, name, hmissing, ?_⟩)
    rcases openAt_cases hprovide (find_create hmissing _ _ _ false) with
      ⟨e, after, hopen, rfl | rfl⟩ | hopen
    · exact .inl ⟨e, hopen⟩
    · rw [if_pos rfl, setNode_create hdir] at hopen
      exact .inl ⟨e, hopen⟩
    · rw [setNode_create hdir] at hopen
      exact .inr hopen

theorem isNamed_iff {p : NamedPipe} :
    p.isNamed fs = true ↔ ∃ mode, fs.status p.path = .ok (p.file, .pipe mode) := by
  unfold isNamed
  constructor
  · intro h
    split at h
    · rename_i id mode hstatus
      rw [beq_iff_eq] at h
      exact ⟨mode, by rw [hstatus, h]⟩
    · cases h
  · rintro ⟨mode, hstatus⟩
    rw [hstatus]
    exact beq_self_eq_true p.file

/-- Only a name is taken away: a directory that seems to be the pipe, at the end of dots, is not. -/
theorem removeFile_of_not_namesPipe {p : NamedPipe} (hnamed : p.isNamed fs = true)
    (hname : ¬ fs.NamesPipe p.path p.file) : (fs.removeFile p.path).2 = fs := by
  obtain ⟨mode, hstatus⟩ := isNamed_iff.1 hnamed
  obtain ⟨node, hfind, hpipe⟩ := find_of_status hstatus
  cases node <;> cases hpipe
  obtain ⟨hends, -⟩ := find_pipe hfind false
  obtain ⟨entry, slash, hlocate, hnode, hslash⟩ := find_eq_ok_iff.1 hfind
  have hentry : fs.locate p.path .entry = .ok (.existing p.file entry slash) := by
    rw [← hlocate, mannerOf, hends]
    rfl
  cases slash with
  | true => cases hslash rfl
  | false =>
    rcases entry with _ | ⟨dir, name⟩
    · rw [removeFile, hentry]
    · exact absurd ⟨dir, name, _, _, _, hentry, hnode⟩ hname

theorem close_of_namesPipe {p : NamedPipe} (h : fs.NamesPipe p.path p.file) :
    (p.close fs).status p.path = .error .noEntry ∧
      ∀ path node, fs.status path = .ok node → node.1 ≠ p.file →
        (p.close fs).status path = .ok node := by
  obtain ⟨hpath, hothers⟩ := h.removeFile
  unfold close
  rw [if_pos (isNamed_iff.2 h.status)]
  refine ⟨by rw [status_closeFile, hpath], fun path node hstatus hne => ?_⟩
  rw [status_closeFile, hothers path node hstatus hne]

theorem close_of_not_namesPipe {p : NamedPipe} (h : ¬ fs.NamesPipe p.path p.file) (path : String) :
    (p.close fs).status path = fs.status path := by
  unfold close
  split_ifs with hnamed
  · rw [status_closeFile, removeFile_of_not_namesPipe hnamed h]
  · exact status_closeFile fs p.file path

/-- Opening ends with the pipe under its path, of the given mode if it was missing, or with all as
it was; only a pipe that was made and then not opened stays, and it is all that stays.  Closing
takes the name away if and only if it still stands for the pipe, and no other one. -/
theorem opens_or_unwinds (fs : FileSystem) (path : String) (mode umask : Nat) (m : Mishaps) :
    (∀ p after, openAt fs path mode umask m = (.ok p, after) → p.path = path ∧
      ((fs.status path = .error .noEntry ∧
          after.status path = .ok (p.file, .pipe (mode % modeBits))) ∨
        ∃ bits, fs.status path = .ok (p.file, .pipe bits) ∧
          after.status path = .ok (p.file, .pipe bits))) ∧
    (∀ e after, openAt fs path mode umask m = (.error e, after) →
      ((∃ cause, e = .openFile path cause) ∧ fs.status path = .error .noEntry →
        after.status path = .ok (fs.nodes.length, .pipe (mode % modeBits)) ∧
          fs.Keeps (after.removeFile path).2) ∧
      (¬ ((∃ cause, e = .openFile path cause) ∧ fs.status path = .error .noEntry) →
        fs.Keeps after ∧ after.status path = fs.status path)) ∧
    ∀ (p : NamedPipe) (later : FileSystem),
      (later.NamesPipe p.path p.file → (p.close later).status p.path = .error .noEntry ∧
        ∀ other node, later.status other = .ok node → node.1 ≠ p.file →
          (p.close later).status other = .ok node) ∧
      (¬ later.NamesPipe p.path p.file →
        ∀ other, (p.close later).status other = later.status other) := by
  refine ⟨fun p after hopen => ?_, fun e after hopen => ?_,
    fun p later => ⟨close_of_namesPipe, close_of_not_namesPipe⟩⟩
  · rcases openAt_outcome fs path mode umask m with
      ⟨e, _, hfailed, -⟩ | ⟨dir, name, hmissing, ⟨cause, hfailed⟩ | hmade⟩ |
      ⟨id, bits, now, hfound, hbefore, hafter⟩
    · rw [hopen] at hfailed
      cases hfailed
    · rw [hopen] at hfailed
      cases hfailed
    · rw [hopen] at hmade
      cases hmade
      exact ⟨rfl, .inl ⟨status_of_absent hmissing,
        status_of_find (find_create hmissing _ _ _ false)⟩⟩
    · rw [hopen] at hfound
      cases hfound
      exact ⟨rfl, .inr ⟨bits, hbefore, hafter⟩⟩
  · rcases openAt_outcome fs path mode umask m with
      ⟨e, _, hfailed, hkeeps, hstatus, hthere⟩ | ⟨dir, name, hmissing, ⟨cause, hfailed⟩ | hmade⟩ |
      ⟨id, bits, now, hfound, -⟩
    · rw [hopen] at hfailed
      cases hfailed
      exact ⟨fun ⟨hcause, hmissing⟩ => absurd hmissing (hthere hcause),
        fun _ => ⟨hkeeps, hstatus⟩⟩
    · rw [hopen] at hfailed
      cases hfailed
      refine ⟨fun _ => ⟨status_of_find (find_create hmissing _ _ _ false), ?_⟩,
        fun hunwound => absurd ⟨⟨cause, rfl⟩, status_of_absent hmissing⟩ hunwound⟩
      rw [removeFile_create hmissing]
      exact keeps_withNode
    · rw [hopen] at hmade
      cases hmade
    · rw [hopen] at hfound
      cases hfound

theorem openAt_of_denied {dir : FileId} {name : String}
    (hmissing : fs.locate path .entry = .ok (.absent dir name false))
    (hpipe : asksForPipe mode = true)
    (hdenied : permits (.pipe (mode % modeBits) {} 0) (readBit + writeBit) = false) :
    openAt fs path mode umask {} = (.error (.openFile path .permissionDenied),
      (fs.create dir name (.pipe (mode % modeBits) {} 0)).2) := by
  have hmake : provide fs path mode umask {} =
      (.ok (), (fs.create dir name (.pipe (mode % modeBits) {} 0)).2) := by
    have hkind : IoError.noEntry.kind = .notFound := rfl
    simp [provide, attempt, status_of_absent hmissing, hkind, make, makePipe, hpipe, makeEntry,
      hmissing, setMode_create hmissing]
  have hopen : (fs.create dir name (.pipe (mode % modeBits) {} 0)).2.openFile path =
      (.error .permissionDenied, (fs.create dir name (.pipe (mode % modeBits) {} 0)).2) := by
    simp [openFile, find_create hmissing, Node.isDirectory, hdenied]
  simp only [openAt, hmake, attempt, hopen]

private theorem pathNames_p : pathNames "p" = ["p"] := by
  have hfirst : ¬ String.Pos.Raw.atEnd "p" 0 = true := by decide
  have hother : ¬ (String.Pos.Raw.get "p" 0 == String.Pos.Raw.get "/" 0) = true := by decide
  have hend : String.Pos.Raw.atEnd "p" (String.Pos.Raw.next "p" 0) = true := by decide
  have hsplit : "p".splitOn "/" = ["p"] := by
    rw [String.splitOn, if_neg (by decide), String.splitOnAux, if_neg hfirst, if_neg hother,
      String.splitOnAux]
    exact if_pos hend
  rw [pathNames, hsplit]
  decide

private theorem locate_p : ({} : FileSystem).locate "p" .entry = .ok (.absent 0 "p" false) := by
  rw [locate, if_neg (by decide), if_neg (by decide), if_neg (by decide), pathNames_p, walk]
  rfl

/-- A pipe that is made for nobody to read or write cannot be opened, and is not taken away. -/
theorem not_unwound_of_denied :
    (openAt {} "p" 0 0 {}).1 = .error (.openFile "p" .permissionDenied) ∧
      ({} : FileSystem).status "p" = .error .noEntry ∧
      (openAt {} "p" 0 0 {}).2.status "p" = .ok (1, .pipe 0) := by
  rw [openAt_of_denied locate_p rfl rfl]
  exact ⟨rfl, status_of_absent locate_p, status_of_find (find_create locate_p 0 {} 0 false)⟩

end NamedPipe

end SpiBridge
