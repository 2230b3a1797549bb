import SpiBridge.FileSystem.Calls
import Mathlib.Tactic.SplitIfs
/-!
# Where paths lead

A path is followed name by name, and a name either ends the way or lets it go on elsewhere.
Main statements: paths go by the directories, their entries and the links alone; an entry more
makes a difference only to paths that missed it; and what a path to a name finds that is no link
is found behind all links too.
-/

namespace SpiBridge

def Place.entered (dir : FileId) (name : String) (id : FileId) : Place → Place
  | absent d n slash =>
    if (d, n) = (dir, name) then existing id (some (dir, name)) slash else absent d n slash
  | existing other entry slash => existing other entry slash

namespace FileSystem

def parent? (fs : FileSystem) (dir : FileId) : Option FileId :=
  (fs.directory? dir).map (·.1)

def child? (fs : FileSystem) (dir : FileId) (name : String) : Option FileId :=
  (fs.directory? dir).bind fun (_, entries) => entries.lookup name

def link? (fs : FileSystem) (id : FileId) : Option String :=
  match fs.node? id with
  | some (.link target) => some target
  | _ => none

/-- What a name of a path leads to: the end of the way, or where it goes on. -/
def turn (fs : FileSystem) (manner : Manner) (slash : Bool) (links : Nat) (dir : FileId)
    (name : String) (rest : List String) :
    Except IoError Place ⊕ Bool × Nat × FileId × List String :=
  match fs.parent? dir with
  | none => .inl (.error .notADirectory)
  | some parent =>
    if name = "." then .inr (slash, links, dir, rest)
    else if name = ".." then .inr (slash, links, parent, rest)
    else if rest = [] ∧ slash ∧ manner = .creation then .inl (.error .isADirectory)
    else if maxName < name.utf8ByteSize then .inl (.error .nameTooLong)
    else match fs.child? dir name with
      | none => .inl (if rest = [] then .ok (.absent dir name slash) else .error .noEntry)
      | some id =>
        match fs.link? id with
        | some target =>
          if rest = [] ∧ manner = .entry then .inl (.ok (.existing id (some (dir, name)) slash))
          else match links with
            | 0 => .inl (.error .tooManyLinks)
            | links + 1 =>
              .inr (slash || (rest = [] && endsInSlash target), links, startOf dir target,
                pathNames target ++ rest)
        | none =>
          if rest = [] then .inl (.ok (.existing id (some (dir, name)) slash))
          else .inr (slash, links, id, rest)

inductive Walks (fs : FileSystem) (manner : Manner) :
    Bool → Nat → FileId → List String → Except IoError Place → Prop
  | here (slash : Bool) (links : Nat) (dir : FileId) :
      Walks fs manner slash links dir [] (.ok (.existing dir none slash))
  | ends {slash : Bool} {links : Nat} {dir : FileId} {name : String} {rest : List String}
      {result : Except IoError Place}
      (hturn : fs.turn manner slash links dir name rest = .inl result) :
      Walks fs manner slash links dir (name :: rest) result
  | goesOn {slash slash' : Bool} {links links' : Nat} {dir dir' : FileId} {name : String}
      {rest names : List String} {result : Except IoError Place}
      (hturn : fs.turn manner slash links dir name rest = .inr (slash', links', dir', names))
      (hrest : Walks fs manner slash' links' dir' names result) :
      Walks fs manner slash links dir (name :: rest) result

variable {fs after : FileSystem} {manner : Manner} {slash : Bool} {links : Nat}
  {dir d id : FileId} {name n path : String} {names rest : List String}
  {result other : Except IoError Place} {place : Place}

theorem walks_walk (fs : FileSystem) (manner : Manner) (slash : Bool) (links : Nat)
    (dir : FileId) (names : List String) :
    fs.Walks manner slash links dir names (fs.walk manner slash links dir names) := by
  fun_induction walk fs manner slash links dir names with
  | case1 => exact .here _ _ _
  | case2 | case5 | case6 | case8 | case9 | case10 =>
    refine .ends ?_
    simp [turn, parent?, child?, link?, *]
  | case7 | case12 =>
    rename_i hopen
    rw [eq_self, true_and] at hopen
    refine .ends ?_
    simp [turn, parent?, child?, link?, *]
  | case3 | case4 | case11 | case13 =>
    rename_i ih
    refine .goesOn ?_ ih
    simp [turn, parent?, child?, link?, *]

theorem Walks.unique (h : fs.Walks manner slash links dir names result)
    (h' : fs.Walks manner slash links dir names other) : result = other := by
  induction h with
  | here =>
    cases h'
    rfl
  | ends hturn =>
    cases h' with
    | ends hturn' => exact Sum.inl.inj (hturn.symm.trans hturn')
    | goesOn hturn' => simp [hturn] at hturn'
  | goesOn hturn hrest ih =>
    cases h' with
    | ends hturn' => simp [hturn] at hturn'
    | goesOn hturn' hrest' =>
      rw [hturn] at hturn'
      cases hturn'
      exact ih hrest'

theorem walks_iff : fs.Walks manner slash links dir names result ↔
    fs.walk manner slash links dir names = result :=
  ⟨fun h => (walks_walk fs manner slash links dir names).unique h, fun h => h ▸ walks_walk ..⟩

inductive Turned (fs : FileSystem) (slash : Bool) (dir : FileId) (name : String) :
    Except IoError Place ⊕ Bool × Nat × FileId × List String → Prop
  | refused (e : IoError) : Turned fs slash dir name (.inl (.error e))
  | missed (hparent : (fs.parent? dir).isSome) (hentry : fs.child? dir name = none) :
      Turned fs slash dir name (.inl (.ok (.absent dir name slash)))
  | found {id : FileId} (hentry : fs.child? dir name = some id) :
      Turned fs slash dir name (.inl (.ok (.existing id (some (dir, name)) slash)))
  | goesOn {slash' : Bool} {links : Nat} {d : FileId} {names : List String}
      (hslash : slash = true → slash' = true) :
      Turned fs slash dir name (.inr (slash', links, d, names))

theorem turned_turn (fs : FileSystem) (manner : Manner) (slash : Bool) (links : Nat)
    (dir : FileId) (name : String) (rest : List String) :
    fs.Turned slash dir name (fs.turn manner slash links dir name rest) := by
  unfold turn
  rcases hparent : fs.parent? dir with _ | parent
  · exact .refused _
  rcases hentry : fs.child? dir name with _ | id
  · split_ifs <;> first
      | exact .refused _
      | exact .goesOn fun hslash => hslash
      | exact .missed (by rw [hparent]; rfl) hentry
  rcases hlink : fs.link? id with _ | target
  · simp only [hlink]
    split_ifs <;> first
      | exact .refused _
      | exact .goesOn fun hslash => hslash
      | exact .found hentry
  · simp only [hlink]
    rcases links with _ | links <;> split_ifs <;> first
      | exact .refused _
      | exact .goesOn fun hslash => hslash
      | exact .found hentry
      | exact .goesOn fun hslash => Bool.or_eq_true_iff.2 (.inl hslash)

/-- A name in a directory that a path leads to is what the directory has under it. -/
def Place.Tells (fs : FileSystem) : Place → Prop
  | .existing _ none _ => True
  | .existing id (some (dir, name)) _ => fs.child? dir name = some id
  | .absent dir name _ => fs.child? dir name = none ∧ (fs.parent? dir).isSome

theorem Walks.tells (h : fs.Walks manner slash links dir names (.ok place)) :
    Place.Tells fs place := by
  generalize hresult : (.ok place : Except IoError Place) = result at h
  induction h with
  | here =>
    cases hresult
    trivial
  | @ends slash links dir name rest _ hturn =>
    subst hresult
    have hturned := fs.turned_turn manner slash links dir name rest
    rw [hturn] at hturned
    cases hturned with
    | missed hparent hentry => exact ⟨hentry, hparent⟩
    | found hentry => exact hentry
  | goesOn _ _ ih => exact ih hresult

/-! ## What paths go by -/

/-- All that paths go by is the same. -/
structure SameWays (fs after : FileSystem) : Prop where
  start : after.directory = fs.directory
  parent : ∀ dir, after.parent? dir = fs.parent? dir
  entry : ∀ dir name, after.child? dir name = fs.child? dir name
  link : ∀ id, after.link? id = fs.link? id

theorem SameWays.turn_eq (h : fs.SameWays after) :
    after.turn manner slash links dir name rest = fs.turn manner slash links dir name rest := by
  unfold turn
  simp only [h.parent, h.entry, h.link]

theorem SameWays.walks (h : fs.SameWays after)
    (hwalks : fs.Walks manner slash links dir names result) :
    after.Walks manner slash links dir names result := by
  induction hwalks with
  | here => exact .here _ _ _
  | ends hturn => exact .ends (h.turn_eq.trans hturn)
  | goesOn hturn _ ih => exact .goesOn (h.turn_eq.trans hturn) ih

theorem SameWays.locate_eq (h : fs.SameWays after) :
    after.locate path manner = fs.locate path manner := by
  unfold locate
  rw [h.start, walks_iff.1 (h.walks (walks_walk ..))]

/-- All that paths go by is the same, but for a name that stands for a new node: it is neither a
directory nor a link. -/
structure Enters (fs after : FileSystem) (dir : FileId) (name : String) (id : FileId) : Prop where
  start : after.directory = fs.directory
  parent : ∀ d, after.parent? d = fs.parent? d
  entry : ∀ d n, (d, n) ≠ (dir, name) → after.child? d n = fs.child? d n
  link : ∀ other, after.link? other = fs.link? other
  missing : fs.child? dir name = none
  entered : after.child? dir name = some id
  leaf : fs.parent? id = none
  noLink : fs.link? id = none

theorem Enters.turn_cases (h : fs.Enters after dir name id) (manner : Manner) (slash : Bool)
    (links : Nat) (d : FileId) (n : String) (rest : List String) :
    (after.turn manner slash links d n rest = fs.turn manner slash links d n rest ∧
      ∀ place, fs.turn manner slash links d n rest = .inl (.ok place) →
        place.entered dir name id = place) ∨
    (fs.turn manner slash links d n rest =
        .inl (if rest = [] then .ok (.absent dir name slash) else .error .noEntry) ∧
      after.turn manner slash links d n rest =
        if rest = [] then .inl (.ok (.existing id (some (dir, name)) slash))
        else .inr (slash, links, id, rest)) := by
  by_cases hname : (d, n) = (dir, name)
  · obtain ⟨rfl, rfl⟩ := Prod.mk.inj hname
    unfold turn
    rw [h.parent, h.missing, h.entered]
    simp only [h.link, h.noLink]
    rcases fs.parent? d with _ | parent
    · exact .inl ⟨rfl, by rintro place ⟨⟩⟩
    · simp only
      split_ifs <;> first
        | exact .inr ⟨rfl, rfl⟩
        | exact .inl ⟨rfl, by rintro place ⟨⟩⟩
  · have hsame : after.turn manner slash links d n rest = fs.turn manner slash links d n rest := by
      unfold turn
      rw [h.parent, h.entry d n hname]
      simp only [h.link]
    refine .inl ⟨hsame, fun place hturn => ?_⟩
    have hturned := fs.turned_turn manner slash links d n rest
    rw [hturn] at hturned
    cases hturned with
    | missed => simp only [Place.entered, if_neg hname]
    | found => rfl

theorem Enters.walk_eq (h : fs.Enters after dir name id)
    (hwalks : fs.Walks manner slash links d names result) :
    (after.walk manner slash links d names).toOption =
      result.toOption.map (Place.entered dir name id) := by
  induction hwalks with
  | here => rw [walks_iff.1 (.here ..)]; rfl
  | @ends slash links d n rest result hturn =>
    rcases h.turn_cases manner slash links d n rest with
      ⟨hsame, hentered⟩ | ⟨hmissing, hafter⟩
    · rw [hturn] at hsame hentered
      rw [walks_iff.1 (.ends hsame)]
      rcases result with e | place
      · rfl
      · simp only [Except.toOption, Option.map_some, hentered place rfl]
    · rw [hturn] at hmissing
      cases hmissing
      rcases rest with _ | ⟨next, more⟩
      · rw [if_pos rfl] at hafter
        rw [walks_iff.1 (.ends hafter)]
        simp [Except.toOption, Place.entered]
      · -- The node is no directory, so it ends every longer way.
        rw [if_neg (by simp)] at hafter
        have hleaf : after.turn manner slash links id next more = .inl (.error .notADirectory) := by
          unfold turn
          rw [h.parent, h.leaf]
        rw [walks_iff.1 (.goesOn hafter (.ends hleaf))]
        rfl
  | @goesOn slash _ links _ d _ n rest _ _ hturn hrest ih =>
    rcases h.turn_cases manner slash links d n rest with ⟨hsame, -⟩ | ⟨hmissing, -⟩
    · rw [← ih]
      exact congrArg Except.toOption
        (walks_iff.1 (.goesOn (hsame.trans hturn) (walks_walk ..)))
    · rw [hturn] at hmissing
      cases hmissing

theorem Enters.locate_eq (h : fs.Enters after dir name id) (path : String) (manner : Manner) :
    (after.locate path manner).toOption =
      (fs.locate path manner).toOption.map (Place.entered dir name id) := by
  unfold locate
  split_ifs <;> try rfl
  rw [h.start]
  exact h.walk_eq (walks_walk ..)

theorem tells_of_locate (h : fs.locate path manner = .ok place) : Place.Tells fs place := by
  unfold locate at h
  split_ifs at h
  exact (walks_iff.2 h).tells

theorem Enters.locate_cases (h : fs.Enters after dir name id)
    (hlocate : after.locate path manner = .ok place) :
    (fs.locate path manner = .ok place ∧ ∀ slash, place ≠ .existing id (some (dir, name)) slash) ∨
      ∃ slash, place = .existing id (some (dir, name)) slash ∧
        fs.locate path manner = .ok (.absent dir name slash) := by
  have heq := h.locate_eq path manner
  rw [hlocate] at heq
  rcases hbefore : fs.locate path manner with e | before <;> rw [hbefore] at heq
  · cases heq
  obtain rfl : place = before.entered dir name id := Option.some.inj heq
  have htells := tells_of_locate hbefore
  rcases before with ⟨other, entry, slash⟩ | ⟨d, n, slash⟩
  · refine .inl ⟨rfl, fun slash' hplace => ?_⟩
    obtain ⟨rfl, rfl, rfl⟩ := Place.existing.inj hplace
    have hentry : fs.child? dir name = some other := htells
    rw [h.missing] at hentry
    cases hentry
  · by_cases hname : (d, n) = (dir, name)
    · obtain ⟨rfl, rfl⟩ := Prod.mk.inj hname
      exact .inr ⟨slash, if_pos rfl, rfl⟩
    · have hsame : Place.entered dir name id (.absent d n slash) = .absent d n slash :=
        if_neg hname
      rw [hsame]
      exact .inl ⟨rfl, fun slash' hplace => by cases hplace⟩

theorem Enters.locate_of_absent (h : fs.Enters after dir name id)
    (hlocate : fs.locate path manner = .ok (.absent dir name slash)) :
    after.locate path manner = .ok (.existing id (some (dir, name)) slash) := by
  have heq := h.locate_eq path manner
  rw [hlocate] at heq
  rcases hafter : after.locate path manner with e | place <;> rw [hafter] at heq
  · cases heq
  · rw [Option.some.inj heq, Place.entered, if_pos rfl]

/-! ## Links at the end -/

theorem turn_node_cases (fs : FileSystem) (slash : Bool) (links : Nat) (dir : FileId)
    (name : String) (rest : List String) :
    fs.turn .node slash links dir name rest = fs.turn .entry slash links dir name rest ∨
      ∃ id, fs.turn .entry slash links dir name rest =
        .inl (.ok (.existing id (some (dir, name)) slash)) ∧ (fs.link? id).isSome := by
  unfold turn
  rcases fs.parent? dir with _ | parent
  · exact .inl rfl
  rcases fs.child? dir name with _ | id
  · exact .inl (by simp)
  rcases hlink : fs.link? id with _ | target
  · exact .inl (by simp [hlink])
  · simp only [hlink]
    split_ifs <;> simp_all

/-- What a path to a name finds, and is no link, is found behind all links too. -/
theorem Walks.node_of_entry (h : fs.Walks .entry slash links dir names (.ok place))
    (hplace : ∀ id entry slash, place = .existing id entry slash → fs.link? id = none) :
    fs.Walks .node slash links dir names (.ok place) := by
  generalize hresult : (.ok place : Except IoError Place) = result at h
  induction h with
  | here => exact .here _ _ _
  | @ends slash links dir name rest result hturn =>
    subst hresult
    rcases fs.turn_node_cases slash links dir name rest with hsame | ⟨id, hentry, hlink⟩
    · exact .ends (hsame.trans hturn)
    · rw [hentry] at hturn
      cases hturn
      rw [hplace _ _ _ rfl] at hlink
      cases hlink
  | @goesOn slash _ links _ dir _ name rest _ _ hturn _ ih =>
    rcases fs.turn_node_cases slash links dir name rest with hsame | ⟨id, hentry, -⟩
    · exact .goesOn (hsame.trans hturn) (ih hresult)
    · rw [hentry] at hturn
      cases hturn

theorem locate_node_of_entry (h : fs.locate path .entry = .ok place)
    (hplace : ∀ id entry slash, place = .existing id entry slash → fs.link? id = none) :
    fs.locate path .node = .ok place := by
  unfold locate at h ⊢
  split_ifs at h ⊢
  exact walks_iff.1 ((walks_iff.2 h).node_of_entry hplace)

theorem Walks.keeps_slash (h : fs.Walks manner slash links dir names result) (hslash : slash = true)
    (id : FileId) (entry : Option (FileId × String)) :
    result ≠ .ok (.existing id entry false) := by
  induction h with
  | here =>
    subst hslash
    exact fun hplace => by cases hplace
  | @ends slash links dir name rest _ hturn =>
    subst hslash
    rintro rfl
    have hturned := fs.turned_turn manner true links dir name rest
    rw [hturn] at hturned
    cases hturned
  | @goesOn slash _ links _ dir _ name rest _ _ hturn _ ih =>
    have hturned := fs.turned_turn manner slash links dir name rest
    rw [hturn] at hturned
    cases hturned with
    | goesOn hkeeps => exact ih (hkeeps hslash)

theorem endsInSlash_of_locate {entry : Option (FileId × String)}
    (h : fs.locate path manner = .ok (.existing id entry false)) : endsInSlash path = false := by
  unfold locate at h
  split_ifs at h
  rw [← Bool.not_eq_true]
  exact fun hslash => (walks_iff.2 h).keeps_slash hslash id entry rfl

end FileSystem

end SpiBridge
