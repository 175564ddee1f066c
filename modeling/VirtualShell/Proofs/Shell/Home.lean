import VirtualShell.Proofs.Command.Frame
import VirtualShell.Proofs.Files.Naming
import VirtualShell.Proofs.Shell.Remembered
import VirtualShell.Proofs.Shell.Restart

/-! # The home directory

The text that names the home directory is read in three ways: its names are walked from the root when
the directory is created, the first working directory is resolved against the text itself, and a later
change of the directory resolves it against wherever the shell stands.
-/

namespace VirtualShell

namespace Path

/-- No name is one that a walk along the names would read as a direction. -/
def Undotted (names : List String) : Prop := "." ∉ names ∧ ".." ∉ names

instance (names : List String) : Decidable (Undotted names) :=
  inferInstanceAs (Decidable ("." ∉ names ∧ ".." ∉ names))

theorem Undotted.resolve {current name : String} (h : Undotted (segments current)) (hname : IsName name) :
    Undotted (segments (resolve current name)) := by
  by_cases hdot : name = "."
  · rw [hdot, resolve_dot]
    exact h
  by_cases hdots : name = ".."
  · rw [hdots, resolve_dots, segments_parent]
    exact ⟨fun hmem => h.1 (List.dropLast_subset _ hmem), fun hmem => h.2 (List.dropLast_subset _ hmem)⟩
  · rw [segments_resolve_of_isName hname hdot hdots]
    unfold Undotted
    rw [List.mem_append, List.mem_append, List.mem_singleton, List.mem_singleton]
    exact ⟨fun hmem => hmem.elim h.1 fun heq => hdot heq.symm,
      fun hmem => hmem.elim h.2 fun heq => hdots heq.symm⟩

theorem segments_ne_nil_of_relative {path : String} (hrelative : path.toList.head? ≠ some '/')
    (hempty : path ≠ "") : segments path ≠ [] := by
  obtain ⟨c, rest, htext⟩ : ∃ c rest, path.toList = c :: rest :=
    List.exists_cons_of_ne_nil fun hnil => hempty (String.toList_eq_nil_iff.mp hnil)
  rw [htext, List.head?_cons, ne_eq, Option.some.injEq] at hrelative
  unfold segments
  rw [htext, Text.pieces_cons, if_neg hrelative]
  simp

/-- A path leads to the same place from everywhere only if it is absolute. -/
theorem resolve_everywhere_iff {path : String} :
    (∀ current, segments (resolve current path) = segments path) ↔ path.toList.head? = some '/' := by
  constructor
  · intro h
    by_contra hrelative
    have hplace := h "/x"
    by_cases hdot : path = "."
    · rw [hdot] at hplace
      exact absurd hplace (by decide)
    by_cases hdots : path = ".."
    · rw [hdots] at hplace
      exact absurd hplace (by decide)
    · rw [segments_resolve_relative hrelative hdot hdots, List.append_left_eq_self] at hplace
      exact absurd hplace (by decide)
  · intro habsolute current
    rw [resolve_absolute habsolute]

/-- A path that is resolved against itself leads where it leads from the root only if it is absolute,
a single dot or empty. -/
theorem segments_resolve_self_iff {path : String} :
    segments (resolve path path) = segments path ↔
      path.toList.head? = some '/' ∨ path = "." ∨ path = "" := by
  constructor
  · intro h
    by_contra hother
    simp only [not_or] at hother
    obtain ⟨hrelative, hdot, hempty⟩ := hother
    by_cases hdots : path = ".."
    · rw [hdots] at h
      exact absurd h (by decide)
    · rw [segments_resolve_relative hrelative hdot hdots, List.append_left_eq_self] at h
      exact segments_ne_nil_of_relative hrelative hempty h
  · rintro (habsolute | rfl | rfl)
    · rw [resolve_absolute habsolute]
    · rfl
    · decide

end Path

namespace Node

variable {root after : Node}

/-- All that was in a tree is there as it was, and anything new is a directory at a place without
directions among its names. -/
def Grown (root after : Node) : Prop :=
  ∀ names, after.labelAt names = root.labelAt names ∨
    root.labelAt names = none ∧ after.labelAt names = some none ∧ Path.Undotted names

namespace Grown

theorem refl (root : Node) : root.Grown root := fun _ => .inl rfl

theorem trans {later : Node} (first : root.Grown after) (second : after.Grown later) :
    root.Grown later := by
  intro names
  rcases second names with hsame | ⟨hmissing, hnew⟩
  · rw [hsame]
    exact first names
  · rcases first names with hsame | ⟨_, hthere, _⟩
    · rw [hsame] at hmissing
      exact .inr ⟨hmissing, hnew⟩
    · rw [hthere] at hmissing
      cases hmissing

end Grown

end Node

namespace Edit

/-- Creates the directories below `current` that the names lead to, as far as they are missing. -/
def createMissing (current : String) : List String → Edit Unit
  | [] => return
  | name :: rest => do
    let next := Path.resolve current name
    if !(← get).root.exists? next then createDirectory current name
    createMissing next rest

variable {current name : String} {names : List String} {volume after : Volume} {u : Unit}

theorem createMissing_cons (current name : String) (names : List String) (volume : Volume) :
    createMissing current (name :: names) volume =
      if volume.root.exists? (Path.resolve current name) then
        createMissing (Path.resolve current name) names volume
      else match createDirectory current name volume with
        | .ok _ mid => createMissing (Path.resolve current name) names mid
        | .error e mid => .error e mid := by
  rw [createMissing]
  change (if (!volume.root.exists? (Path.resolve current name)) = true then _ else _ : Edit Unit) volume = _
  cases volume.root.exists? (Path.resolve current name) with
  | true => rfl
  | false =>
      change EStateM.bind (createDirectory current name)
        (fun _ => createMissing (Path.resolve current name) names) volume = _
      unfold EStateM.bind
      cases createDirectory current name volume <;> rfl

theorem of_createMissing_cons_eq_ok (h : createMissing current (name :: names) volume = .ok u after) :
    ∃ mid, (volume.root.exists? (Path.resolve current name) = true ∧ mid = volume ∨
        createDirectory current name volume = .ok () mid) ∧
      createMissing (Path.resolve current name) names mid = .ok u after := by
  rw [createMissing_cons] at h
  split at h
  · rename_i hthere
    exact ⟨volume, .inl ⟨hthere, rfl⟩, h⟩
  · split at h
    · rename_i mid hcreated
      exact ⟨mid, .inr hcreated, h⟩
    · cases h

/-- A directory that is created is all that is new. -/
theorem createDirectory_grown (hname : Path.IsName name) (hcurrent : Path.Undotted (Path.segments current))
    (h : createDirectory current name volume = .ok u after) :
    volume.root.Grown after.root ∧
      after.root.labelAt (Path.segments (Path.resolve current name)) = some none := by
  obtain ⟨hne, ⟨entries, hparent⟩, hmissing, rfl⟩ := create_eq_ok_iff.mp h
  have hundotted := hcurrent.resolve hname
  generalize Path.segments (Path.resolve current name) = place at hne hparent hmissing hundotted ⊢
  have hbelow (rest : List String) : (volume.root.insertAt place .empty).labelAt (place ++ rest) =
      Node.empty.labelAt rest := by
    rw [Node.labelAt, Node.lookup_insertAt_below hne hparent, Node.labelAt]
  have hthere : (volume.root.insertAt place .empty).labelAt place = some none := by
    have hplace := hbelow []
    rw [List.append_nil] at hplace
    exact hplace
  refine ⟨fun names => ?_, hthere⟩
  rw [Volume.root_saved]
  by_cases hunder : place <+: names
  · obtain ⟨rest, rfl⟩ := hunder
    have hnothing : volume.root.labelAt (place ++ rest) = none := by
      rw [Node.labelAt_eq_none_iff, Node.lookup_append, hmissing, Option.bind_none]
    cases rest with
    | nil =>
        rw [List.append_nil] at hnothing ⊢
        exact .inr ⟨hnothing, hthere, hundotted⟩
    | cons name rest => exact .inl ((hbelow _).trans hnothing.symm)
  · exact .inl (Node.labelAt_insertAt hunder _ _)

/-- A walk that succeeds adds nothing but directories. -/
theorem createMissing_grown (hnames : ∀ name ∈ names, Path.IsName name)
    (hcurrent : Path.Undotted (Path.segments current))
    (h : createMissing current names volume = .ok u after) : volume.root.Grown after.root := by
  induction names generalizing current volume with
  | nil =>
      cases h
      exact .refl _
  | cons name names ih =>
      rw [List.forall_mem_cons] at hnames
      obtain ⟨mid, hstep, hrest⟩ := of_createMissing_cons_eq_ok h
      have hlater := ih hnames.2 (hcurrent.resolve hnames.1) hrest
      rcases hstep with ⟨_, rfl⟩ | hcreated
      · exact hlater
      · exact (createDirectory_grown hnames.1 hcurrent hcreated).1.trans hlater

/-- What the names lead to is there after a walk that succeeds, if no name among them is a direction. -/
theorem labelAt_createMissing (hnames : ∀ name ∈ names, Path.IsName name)
    (hundotted : Path.Undotted names) (hcurrent : Path.Undotted (Path.segments current))
    (hthere : (volume.root.labelAt (Path.segments current)).isSome)
    (h : createMissing current names volume = .ok u after) :
    (after.root.labelAt (Path.segments current ++ names)).isSome := by
  induction names generalizing current volume with
  | nil =>
      cases h
      rw [List.append_nil]
      exact hthere
  | cons name names ih =>
      rw [List.forall_mem_cons] at hnames
      obtain ⟨hdot, hdots⟩ := hundotted
      rw [List.mem_cons, not_or, ← ne_eq, ne_comm] at hdot hdots
      obtain ⟨mid, hstep, hrest⟩ := of_createMissing_cons_eq_ok h
      have hnext : (mid.root.labelAt (Path.segments (Path.resolve current name))).isSome := by
        rcases hstep with ⟨hfound, rfl⟩ | hcreated
        · rw [Node.labelAt, Option.isSome_map]
          exact hfound
        · rw [(createDirectory_grown hnames.1 hcurrent hcreated).2]
          rfl
      have hlater := ih hnames.2 ⟨hdot.2, hdots.2⟩ (hcurrent.resolve hnames.1) hnext hrest
      rw [Path.segments_resolve_of_isName hnames.1 hdot.1 hdots.1, List.append_assoc] at hlater
      exact hlater

/-- After the directories on the way to a path were created with success, the path leads to a directory
exactly if it did so before, or if nothing was there and no name on the way is a direction. -/
theorem hasDirectory_createMissing_iff {path : String}
    (h : createMissing "/" (Path.segments path) volume = .ok u after) :
    after.root.HasDirectory path ↔ volume.root.HasDirectory path ∨
      volume.root.exists? path = false ∧ Path.Undotted (Path.segments path) := by
  have hnames : ∀ name ∈ Path.segments path, Path.IsName name := fun _ => Path.isName_of_mem_segments
  have hslash : Path.Undotted (Path.segments "/") := by decide
  rw [Node.hasDirectory_iff_labelAt, Node.hasDirectory_iff_labelAt, Node.exists?_eq_false_iff,
    ← Node.labelAt_eq_none_iff]
  rcases createMissing_grown hnames hslash h (Path.segments path) with hsame | ⟨hmissing, hnew, hundotted⟩
  · rw [hsame]
    refine ⟨.inl, fun hbefore => hbefore.resolve_right ?_⟩
    rintro ⟨hmissing, hundotted⟩
    have hthere : (volume.root.labelAt (Path.segments "/")).isSome := rfl
    have hfound := labelAt_createMissing hnames hundotted hslash hthere h
    rw [Path.segments_slash, List.nil_append, hsame, hmissing] at hfound
    cases hfound
  · exact ⟨fun _ => .inr ⟨hmissing, hundotted⟩, fun _ => hnew⟩

end Edit

namespace State

/-- The state of a start before the home directory is created. -/
def ready (options : Options) (now : Moment) (store : Store) : State :=
  options.aliases.foldl addAlias (opened options now store)

variable {state : State} {options : Options} {now : Moment} {store : Store}

/-- A start goes on in the same way whether the walk to the home directory succeeds or fails. -/
theorem ensureDirectories_eq (current : String) (names : List String) (state : State) :
    state.ensureDirectories current names =
      match Edit.createMissing current names state.volume with
      | .ok _ volume | .error _ volume => { state with volume } := by
  induction names generalizing current state with
  | nil => rfl
  | cons name names ih =>
      rw [Edit.createMissing_cons]
      unfold ensureDirectories
      dsimp only
      split
      · exact ih _ _
      · cases Edit.createDirectory current name state.volume with
        | ok _ volume => exact ih _ { state with volume }
        | error e volume => rfl

theorem ensureDirectories_of_ok {current : String} {names : List String} {volume : Volume} {u : Unit}
    (h : Edit.createMissing current names state.volume = .ok u volume) :
    state.ensureDirectories current names = { state with volume } := by
  rw [ensureDirectories_eq, h]

theorem root_ready : (ready options now store).volume.root = (Volume.restore store).root :=
  root_foldl_addAlias _ _

theorem directories_ready (options : Options) (now : Moment) (store : Store) :
    (ready options now store).session.current = options.home ∧
      (ready options now store).session.previous = options.home ∧
      (ready options now store).session.home = options.home := by
  unfold ready
  rw [Table.foldl, session_foldl_addAlias]
  exact ⟨rfl, rfl, rfl⟩

/-- The session stands in the canonical path of its home directory only if the text is written in that
form, or if the text leads to a directory and leads to the same place from itself as from the root. -/
theorem current_standIn_iff {home : String} (hcurrent : state.session.current = home) :
    (state.standIn home home).session.current = Path.canonical home ↔
      home = Path.canonical home ∨ state.volume.root.HasDirectory home ∧
        (home.toList.head? = some '/' ∨ home = "." ∨ home = "") := by
  rw [← Path.segments_resolve_self_iff]
  unfold standIn
  cases hfound : state.volume.root.changePath home home with
  | ok path =>
      obtain ⟨hthere, rfl⟩ := Node.changePath_eq_ok_iff.mp hfound
      dsimp only
      rw [Path.canonical_eq_iff]
      constructor
      · exact fun hplace => .inr ⟨(Node.hasDirectory_congr hplace).mp hthere, hplace⟩
      · rintro (hcanonical | ⟨_, hplace⟩)
        · have habsolute : home.toList.head? = some '/' := by
            rw [hcanonical]
            exact Path.head?_ofSegments _
          exact Path.segments_resolve_self_iff.mpr (.inl habsolute)
        · exact hplace
  | error e =>
      dsimp only
      rw [hcurrent]
      refine ⟨.inl, fun h => h.resolve_right ?_⟩
      rintro ⟨hthere, hplace⟩
      have hok := Node.changePath_eq_ok_iff.mpr ⟨(Node.hasDirectory_congr hplace).mpr hthere, rfl⟩
      rw [hfound] at hok
      cases hok

theorem previous_standIn {home start : String} (h : state.session.previous = state.session.current) :
    (state.standIn home start).session.previous = (state.standIn home start).session.current := by
  unfold standIn
  split
  · rfl
  · exact h

theorem home_standIn (home start : String) (state : State) :
    (state.standIn home start).session.home = state.session.home := by
  unfold standIn
  split <;> rfl

theorem root_settled (state : State) : state.settled.volume.root = state.volume.root := rfl

theorem session_settled (state : State) : state.settled.session = state.session := rfl

def GoesHome (path : String) (state : State) : Prop :=
  ∀ given ∈ [[], ["~"]], Command.cd given state =
    .ok [] { state with session := state.session.changeDirectory path }

theorem cd_home (state : State) {given : List String} (h : given ∈ [[], ["~"]]) :
    Command.cd given state =
      match state.volume.root.changePath state.session.current state.session.home with
      | .ok path => .ok [] { state with session := state.session.changeDirectory path }
      | .error e => .error (.files "cd" "~" e) state := by
  have hgiven : Command.cd given state = Command.cd [] state := by
    rcases List.mem_pair.mp h with rfl | rfl <;> rfl
  rw [hgiven, Command.cd_apply]
  rfl

theorem goesHome_iff {home : String} (hhome : state.session.home = home)
    (hthere : state.volume.root.HasDirectory home) :
    state.GoesHome (Path.canonical home) ↔
      Path.segments (Path.resolve state.session.current home) = Path.segments home := by
  constructor
  · intro hgoes
    have hcd := hgoes [] (by simp)
    rw [cd_home state (by simp), hhome] at hcd
    cases hfound : state.volume.root.changePath state.session.current home with
    | error e =>
        rw [hfound] at hcd
        cases hcd
    | ok path =>
        rw [hfound] at hcd
        obtain ⟨_, rfl⟩ := Node.changePath_eq_ok_iff.mp hfound
        injection hcd with _ hstate
        have hcurrent := congrArg (·.session.current) hstate
        exact Path.canonical_eq_iff.mp hcurrent
  · intro hplace given hgiven
    have hfound := Node.changePath_eq_ok_iff.mpr ⟨(Node.hasDirectory_congr hplace).mpr hthere, rfl⟩
    rw [Path.canonical_eq_iff.mpr hplace] at hfound
    rw [cd_home state hgiven, hhome, hfound]

/-- What a shell can make of a state: it takes the steps of commands, records lines, has its saves carried
out, and the time goes on.  It may stand in any directory. -/
inductive Later (first : State) : State → Prop
  | refl : Later first first
  | step {part : Part} {before after : State} (earlier : Later first before) (h : Step part before after) :
      Later first after
  | stand {state : State} (earlier : Later first state) (path : String) :
      Later first { state with session := { state.session with current := path, previous := path } }
  | record {state : State} (earlier : Later first state) (line : String) : Later first (state.record line)
  | settled {state : State} (earlier : Later first state) : Later first state.settled
  | atTime {state : State} (earlier : Later first state) (now : Moment) : Later first (state.atTime now)

namespace Later

variable {first later : State}

/-- The home directory is fixed for good. -/
theorem home_eq (h : Later first later) : later.session.home = first.session.home := by
  induction h with
  | refl => rfl
  | step _ hstep ih => exact hstep.frame.identity.2.2.trans ih
  | stand _ path ih => exact ih
  | record _ line ih => rwa [State.record, session_setHistory]
  | settled _ ih => exact ih
  | atTime _ now ih => exact ih

end Later

end State

namespace Shell

theorem later_invariant (first : State) : Invariant fun state => State.Later first state where
  step hstep h := h.step hstep
  stand path h := h.stand path
  record line h := h.record line
  settle h := h.settled
  atTime now h := h.atTime now

theorem later_run (shell : Shell) (inputs : List (Moment × String)) :
    State.Later shell.state (shell.run inputs).state :=
  (later_invariant shell.state).run (.refl : State.Later shell.state shell.state) inputs

theorem state_start_of_created {options : Options} {now : Moment} {store : Store} {volume : Volume} {u : Unit}
    (hstart : options.start = none)
    (hcreated : Edit.createMissing "/" (Path.segments options.home)
      (State.ready options now store).volume = .ok u volume) :
    let ready := State.ready options now store
    (start options now store).1.state =
      (State.standIn options.home options.home { ready with volume }).settled := by
  intro ready
  have hrestore : State.restore options now store = (ready.ensureDirectories "/"
      (Path.segments options.home)).standIn options.home (options.start.getD options.home) := rfl
  rw [hstart, State.ensureDirectories_of_ok hcreated] at hrestore
  exact congrArg State.settled hrestore

/-- A start without a directory of its own that creates the home directory with success.  The text of the
home directory leads to a directory only if it did so before, or if nothing was there and no name in the
text is a single or a double dot.  The canonical path of the home directory is where the shell stands only
if the text is written in that form, or if it leads to a directory and is absolute, a single dot or empty.
Later, as long as the text leads to a directory, a change to the home directory goes there only if the
text leads to the same place from the working directory and from the root; so it does from everywhere
only if the text is absolute. -/
theorem start_finds_home (options : Options) (now : Moment) (store : Store) {volume : Volume}
    (hstart : options.start = none)
    (hcreated : Edit.createMissing "/" (Path.segments options.home)
      (State.ready options now store).volume = .ok () volume) :
    let home := options.home
    let before := (Volume.restore store).root
    let first := (start options now store).1.state
    let absolute := home.toList.head? = some '/'
    (first.volume.root.HasDirectory home ↔ before.HasDirectory home ∨
      before.exists? home = false ∧ Path.Undotted (Path.segments home)) ∧
    (first.session.current = Path.canonical home ↔ home = Path.canonical home ∨
      first.volume.root.HasDirectory home ∧ (absolute ∨ home = "." ∨ home = "")) ∧
    first.session.previous = first.session.current ∧
    (∀ later, State.Later first later → later.volume.root.HasDirectory home →
      (later.GoesHome (Path.canonical home) ↔
        Path.segments (Path.resolve later.session.current home) = Path.segments home)) ∧
    (first.volume.root.HasDirectory home →
      ((∀ later, State.Later first later → later.volume.root.HasDirectory home →
        later.GoesHome (Path.canonical home)) ↔ absolute)) := by
  intro home before first absolute
  obtain ⟨hcurrent, hprevious, hhome⟩ := State.directories_ready options now store
  have hbefore : (State.ready options now store).volume.root = before := State.root_ready
  have hfirst : first = _ := state_start_of_created hstart hcreated
  generalize State.ready options now store = ready at hcurrent hprevious hhome hbefore hcreated hfirst
  have hroot : first.volume.root = volume.root := by
    rw [hfirst, State.root_settled, State.volume_standIn]
  have hlater : ∀ later, State.Later first later → later.volume.root.HasDirectory home →
      (later.GoesHome (Path.canonical home) ↔
        Path.segments (Path.resolve later.session.current home) = Path.segments home) := by
    intro later hlater hthere
    refine State.goesHome_iff (hlater.home_eq.trans ?_) hthere
    rw [hfirst, State.session_settled, State.home_standIn]
    exact hhome
  refine ⟨?_, ?_, ?_, hlater, fun hthere => ?_⟩
  · rw [hroot, Edit.hasDirectory_createMissing_iff hcreated, hbefore]
  · rw [hroot, hfirst, State.session_settled]
    exact State.current_standIn_iff hcurrent
  · rw [hfirst, State.session_settled]
    exact State.previous_standIn (hprevious.trans hcurrent.symm)
  · refine Iff.trans ?_ Path.resolve_everywhere_iff
    constructor
    · intro hgoes current
      have hstands : State.Later first _ := State.Later.refl.stand current
      exact (hlater _ hstands hthere).mp (hgoes _ hstands hthere)
    · exact fun hplace later hreached hfound => (hlater later hreached hfound).mpr (hplace _)

def relativeHome : Options := { home := "work" }

/-- That home directory is created below the root, but the shell does not stand in it, and it does not go
there from everywhere. -/
theorem start_finds_home_relative :
    ∃ volume, relativeHome.start = none ∧
      Edit.createMissing "/" (Path.segments relativeHome.home)
        (State.ready relativeHome .epoch (.memory .empty)).volume = .ok () volume ∧
      let first := (start relativeHome .epoch (.memory .empty)).1.state
      first.volume.root.HasDirectory "work" ∧ first.session.current ≠ "/work" ∧
        ∃ later, State.Later first later ∧ later.volume.root.HasDirectory "work" ∧
          ¬ later.GoesHome "/work" := by
  obtain ⟨volume, hcreated⟩ : ∃ volume, Edit.createMissing "/" (Path.segments relativeHome.home)
      (State.ready relativeHome .epoch (.memory .empty)).volume = .ok () volume := ⟨_, rfl⟩
  obtain ⟨hthere, hstands, _, _, hgoes⟩ :=
    start_finds_home relativeHome .epoch (.memory .empty) rfl hcreated
  have hcanonical : Path.canonical relativeHome.home = "/work" := by decide
  have hrelative : relativeHome.home.toList.head? ≠ some '/' := by decide
  have hnew : (Volume.restore (.memory .empty)).root.exists? relativeHome.home = false := by rfl
  have hfound := hthere.mpr (.inr ⟨hnew, by decide⟩)
  refine ⟨volume, rfl, hcreated, hfound, fun hcurrent => ?_, ?_⟩
  · rcases hstands.mp (hcurrent.trans hcanonical.symm) with hwritten | ⟨_, habsolute | hdot | hempty⟩
    · rw [hcanonical] at hwritten
      exact absurd hwritten (by decide)
    · exact hrelative habsolute
    · exact absurd hdot (by decide)
    · exact absurd hempty (by decide)
  · by_contra hall
    refine hrelative ((hgoes hfound).mp fun later hlater hhome => ?_)
    rw [hcanonical]
    by_contra haway
    exact hall ⟨later, hlater, hhome, haway⟩

end Shell

end VirtualShell
