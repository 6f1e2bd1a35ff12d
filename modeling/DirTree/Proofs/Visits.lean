import DirTree.Proofs.Calls

/-!
# What the visitor of a walk sees

A walk is observed through the calls of its visitor. Wrapping any visitor so that it records
each call (`Visitor.recorded`) changes nothing else, and the record shows the walk's whole
behaviour on every listing, in any order and whatever failure ends it:

* the visitor gets the listed names other than `.` and `..`, in listing order, each once, up to
  where the walk stops (`Walked.inOrder`), and each recorded call is a call of the visitor
  (`Call.By`);
* each call gets a handle holding the kind found at its path at that moment, looked up afresh
  and never left over from the entry before (`Walked.fresh`); each call sees the world the one
  before it left (`Walked.chain`);
* the handle's path is the path of the handle the call before left, cut back to the directory's
  length, with the name appended (`Walked.paths`);
* the first failure ends the walk: a name that cannot be classified, a failure to read the
  listing on, or an error of the visitor, which is the walk's error as it is (`Stopped`);
  otherwise the walk succeeds after the last name (`Walked.ok_iff`).

The visitor holds the child handle and may leave another one in its place. Cutting back to the
directory's length gives the directory's path again only while the handle left starts with it:
a visitor that leaves the handle on the path it got has every entry handed over on
`dir.append name` (`Call.Paths.append_name`), and one that leaves a handle on a shorter path
does not (`walk_after_replaced_child`).
-/

namespace DirTree

namespace Listing

/-- The names a listing hands over before its first failure to read, `.` and `..` left out. -/
def names : Listing → List Bytes
  | [] => []
  | .error _ :: _ => []
  | .ok n :: items => if isDotEntry n then names items else n :: names items

def failure : Listing → Option Errno
  | [] => none
  | .error e :: _ => some e
  | .ok _ :: items => failure items

@[simp] theorem names_dot {n : Bytes} (h : isDotEntry n = true) (items : Listing) :
    names (.ok n :: items) = names items := by
  simp [names, h]

@[simp] theorem names_entry {n : Bytes} (h : isDotEntry n = false) (items : Listing) :
    names (.ok n :: items) = n :: names items := by
  simp [names, h]

end Listing

/-- One call of a visitor: the handle and the name it got, the world it was called in, how it
ended, the world it left, and the handle it left. -/
structure Call where
  child : Handle
  name : Bytes
  world : World
  result : Except TreeError Unit
  after : World
  left : Handle

/-- The visitor `visit`, keeping beside its own state the list of the calls made to it. -/
def Visitor.recorded {σ : Type} (visit : Visitor σ) : Visitor (σ × List Call) :=
  fun child name s w =>
    let v := visit child name s.1 w
    ⟨⟨v.result, (v.state, s.2 ++ [⟨child, name, w, v.result, v.world, v.child⟩]), v.world⟩, v.child⟩

/-- A visitor that leaves the child handle on the path it got it on. -/
def Visitor.KeepsPath {σ : Type} (visit : Visitor σ) : Prop :=
  ∀ c x s w, (visit c x s w).child.path = c.path

/-- The call `c` is one of `visit`'s: from some state, `visit` on its handle, name and world ends
as the call did and leaves the handle the call left. -/
def Call.By {σ : Type} (visit : Visitor σ) (c : Call) : Prop :=
  ∃ s, (visit c.child c.name s c.world).result = c.result ∧
    (visit c.child c.name s c.world).world = c.after ∧ (visit c.child c.name s c.world).child = c.left

/-- The path a walk enters its next name from, after the calls `calls` started from a handle on
`p`: the path of the handle the last call left. -/
def Call.resume : Path → List Call → Path
  | p, [] => p
  | _, c :: cs => Call.resume c.left.path cs

/-- The calls follow one another from the world `w`: each starts in the world the one before it
left, and `w'` is the world the last one left (`w` when there is none). -/
inductive Call.Chain : World → List Call → World → Prop
  | nil (w : World) : Call.Chain w [] w
  | cons {w w' : World} {c : Call} {cs : List Call} (start : c.world = w)
      (rest : Call.Chain c.after cs w') : Call.Chain w (c :: cs) w'

/-- The handles of the calls follow one another from a handle on the path `p`: each is on the
path the handle before it was left on, cut back to the length of `dir`, with its name appended. -/
inductive Call.Paths (dir : Path) : Path → List Call → Prop
  | nil (p : Path) : Call.Paths dir p []
  | cons {p : Path} {c : Call} {cs : List Call}
      (entered : c.child.path = (p.truncate dir.len).append c.name)
      (rest : Call.Paths dir c.left.path cs) : Call.Paths dir p (c :: cs)

/-- Why a walk of `dir` stopped with the error `e` in the world `w`, after the calls `calls`,
when its listing holds the names `names` and then the failure `failure`, and the handle it
enters the next name from is on the path `resume`: the visitor failed at its last call, the next
name could not be classified, or the listing could not be read on after its last name. -/
inductive Stopped (dir : Path) (names : List Bytes) (failure : Option Errno) (w : World)
    (calls : List Call) (resume : Path) (e : TreeError) : Prop
  | visitor {c : Call} (last : calls.getLast? = some c) (failed : c.result = .error e)
  | stat {n : Bytes} (ok : ∀ c ∈ calls, c.result = .ok ())
      (next : calls.map (·.name) ++ [n] <+: names)
      (look : Handle.look w ((resume.truncate dir.len).append n) = .error e)
  | read {err : Errno} (ok : ∀ c ∈ calls, c.result = .ok ()) (all : calls.map (·.name) = names)
      (failed : failure = some err) (report : e = .system "readdir" dir (.ofErrno err))

/-- What a walk of `dir` over the listing `items`, started in `w` from a handle on `start`, did
through the calls of its visitor, given how it ended and the world it left. The visitor got the
listed names in order, each once, up to where the walk stopped. Each call got a handle holding the
kind found at its path at that moment, on the path the handle before it was left on, cut back to
the length of `dir`, with the call's name appended; and it saw the world the call before it left.
The walk succeeds exactly when every name was visited, each call succeeded, and the listing was
read to its end. -/
structure Walked (dir start : Path) (items : Listing) (w : World) (calls : List Call)
    (result : Except TreeError Unit) (after : World) : Prop where
  inOrder : calls.map (·.name) <+: items.names
  fresh : ∀ c ∈ calls, ∃ k, Handle.look c.world c.child.path = .ok k ∧ c.child.cached = some k
  paths : Call.Paths dir start calls
  chain : Call.Chain w calls after
  okBefore : ∀ c ∈ calls.dropLast, c.result = .ok ()
  ok_iff : result = .ok () ↔
    calls.map (·.name) = items.names ∧ items.failure = none ∧ ∀ c ∈ calls, c.result = .ok ()
  stopped : ∀ e, result = .error e →
    Stopped dir items.names items.failure after calls (Call.resume start calls) e

namespace Walked

variable {dir p : Path} {w : World}

theorem nil : Walked dir p [] w [] (.ok ()) w where
  inOrder := List.nil_prefix
  fresh := by simp
  paths := .nil p
  chain := .nil w
  okBefore := by simp
  ok_iff := by simp [Listing.names, Listing.failure]
  stopped := by
    intro e h
    cases h

theorem readFail (e : Errno) (items : Listing) :
    Walked dir p (.error e :: items) w [] (.error (.system "readdir" dir (.ofErrno e))) w where
  inOrder := List.nil_prefix
  fresh := by simp
  paths := .nil p
  chain := .nil w
  okBefore := by simp
  ok_iff := by simp [Listing.failure]
  stopped := by
    intro e' h
    cases h
    exact .read (by simp) (by simp [Listing.names]) rfl rfl

theorem skip {n : Bytes} (hdot : isDotEntry n = true) {items : Listing} {calls : List Call}
    {r : Except TreeError Unit} {a : World} (h : Walked dir p items w calls r a) :
    Walked dir p (.ok n :: items) w calls r a := by
  have hnames := Listing.names_dot hdot items
  have hfail : Listing.failure (.ok n :: items) = items.failure := rfl
  refine ⟨hnames ▸ h.inOrder, h.fresh, h.paths, h.chain, h.okBefore, ?_, ?_⟩
  · rw [hnames, hfail]
    exact h.ok_iff
  · rw [hnames, hfail]
    exact h.stopped

theorem statFail {n : Bytes} (hdot : isDotEntry n = false) {e : TreeError}
    (hlook : Handle.look w ((p.truncate dir.len).append n) = .error e) (items : Listing) :
    Walked dir p (.ok n :: items) w [] (.error e) w where
  inOrder := List.nil_prefix
  fresh := by simp
  paths := .nil p
  chain := .nil w
  okBefore := by simp
  ok_iff := by simp [Listing.names_entry hdot]
  stopped := by
    intro e' h
    cases h
    exact .stat (by simp) (by simp [Listing.names_entry hdot]) hlook

/-- The call `c` for the entry `n`, entered from a handle on `p`: its handle is on `p` cut back to
the directory's length with `n` appended, holding the kind looked up in the world it was called
in. -/
structure Entered (dir p : Path) (w : World) (n : Bytes) (c : Call) : Prop where
  child : ∃ k, c.child = ⟨(p.truncate dir.len).append n, some k⟩ ∧
    Handle.look w ((p.truncate dir.len).append n) = .ok k
  name : c.name = n
  world : c.world = w

theorem Entered.fresh {n : Bytes} {c : Call} (h : Entered dir p w n c) :
    ∃ k, Handle.look c.world c.child.path = .ok k ∧ c.child.cached = some k := by
  obtain ⟨⟨k, hc, hk⟩, -, rfl⟩ := h
  rw [hc]
  exact ⟨k, hk, rfl⟩

theorem Entered.path {n : Bytes} {c : Call} (h : Entered dir p w n c) :
    c.child.path = (p.truncate dir.len).append c.name := by
  obtain ⟨⟨k, hc, -⟩, rfl, -⟩ := h
  rw [hc]

theorem visitFail {n : Bytes} (hdot : isDotEntry n = false) {c : Call} (hc : Entered dir p w n c)
    {e : TreeError} (hres : c.result = .error e) (items : Listing) :
    Walked dir p (.ok n :: items) w [c] (.error e) c.after where
  inOrder := by simp [Listing.names_entry hdot, hc.name]
  fresh := by simpa using hc.fresh
  paths := .cons hc.path (.nil _)
  chain := .cons hc.world (.nil _)
  okBefore := by simp
  ok_iff := by simp [hres]
  stopped := by
    intro e' h
    cases h
    exact .visitor rfl hres

/-- **One entry visited.** A call that succeeded on the entry `n`, followed by a walk over the
rest of the listing from the world and the handle it left, is a walk over the whole listing. -/
theorem cons {n : Bytes} (hdot : isDotEntry n = false) {c : Call} (hc : Entered dir p w n c)
    (hok : c.result = .ok ()) {items : Listing} {calls : List Call} {r : Except TreeError Unit}
    {a : World} (h : Walked dir c.left.path items c.after calls r a) :
    Walked dir p (.ok n :: items) w (c :: calls) r a := by
  have hnames := Listing.names_entry hdot items
  have hfail : Listing.failure (.ok n :: items) = items.failure := rfl
  refine ⟨?_, List.forall_mem_cons.mpr ⟨hc.fresh, h.fresh⟩, .cons hc.path h.paths,
    .cons hc.world h.chain, ?_, ?_, ?_⟩
  · rw [hnames, List.map_cons, hc.name, List.cons_prefix_cons]
    exact ⟨rfl, h.inOrder⟩
  · cases calls with
    | nil => simp
    | cons c₁ cs =>
      rw [List.dropLast_cons_cons]
      exact List.forall_mem_cons.mpr ⟨hok, h.okBefore⟩
  · rw [h.ok_iff, hnames, hfail, List.map_cons, hc.name, List.cons_eq_cons]
    simp [hok]
  · intro e he
    rw [hnames, hfail]
    -- the walk resumes from the handle the call left, so the reasons carry over unchanged
    cases h.stopped e he with
    | visitor last failed =>
      cases calls with
      | nil => simp at last
      | cons c₁ cs => exact .visitor (by simpa using last) failed
    | stat ok next look =>
      refine .stat (List.forall_mem_cons.mpr ⟨hok, ok⟩) ?_ look
      rw [List.map_cons, hc.name, List.cons_append, List.cons_prefix_cons]
      exact ⟨rfl, next⟩
    | read ok all failed report =>
      exact .read (List.forall_mem_cons.mpr ⟨hok, ok⟩) (by rw [List.map_cons, hc.name, all]) failed
        report

end Walked

/-- **Handles on the directory's path.** When every call leaves its handle on the path it got,
and the names are entry names, each handle handed over is on the directory's path with the name
appended: cutting back to the directory's length undoes the append before it. -/
theorem Call.Paths.append_name {dir : Path} :
    ∀ {p : Path} {calls : List Call}, Call.Paths dir p calls → dir.bytes <+: p.bytes →
      (∀ c ∈ calls, c.left.path = c.child.path) → (∀ c ∈ calls, EntryName c.name) →
      ∀ c ∈ calls, c.child.path = dir.append c.name
  | _, _, .nil _, _, _, _ => by simp
  | _, _, .cons entered rest, hpre, hkeep, hnames => by
    rename_i c cs
    obtain ⟨hkc, hkeep⟩ := List.forall_mem_cons.mp hkeep
    obtain ⟨hnc, hnames⟩ := List.forall_mem_cons.mp hnames
    -- this call's handle is on the directory's path, and so is the one it left
    have hc : c.child.path = dir.append c.name := by
      rw [entered, Path.truncate_of_prefix hpre]
    have hleft : dir.bytes <+: c.left.path.bytes := by
      rw [hkc, hc]
      exact Path.prefix_append_name dir hnc
    exact List.forall_mem_cons.mpr ⟨hc, rest.append_name hleft hkeep hnames⟩

/-! ## The walk -/

section
variable {σ : Type} (dir : Path) (visit : Visitor σ)

/-- **The loop over a listing.** Through a slot of the directory's length, over any listing,
the calls recorded after the ones already logged are those `Walked` describes from the slot's
handle, and each is a call of `visit`. -/
theorem visitAll_walked :
    ∀ (items : Listing) (slot : ChildSlot) (s : σ) (log : List Call) (w : World),
      slot.baseLen = dir.len →
      ∃ calls, (visitAll dir visit.recorded slot items (s, log) w).state.2 = log ++ calls ∧
        (∀ c ∈ calls, c.By visit) ∧
        Walked dir slot.file.path items w calls (visitAll dir visit.recorded slot items (s, log) w).result
          (visitAll dir visit.recorded slot items (s, log) w).world := by
  intro items
  induction items with
  | nil =>
    intro slot s log w _
    exact ⟨[], by simp [visitAll], by simp, Walked.nil⟩
  | cons item items ih =>
    intro slot s log w hlen
    cases item with
    | error e => exact ⟨[], by simp [visitAll], by simp, Walked.readFail e items⟩
    | ok n =>
      cases hdot : isDotEntry n with
      | true =>
        obtain ⟨calls, hlog, hby, hw⟩ := ih slot s log w hlen
        simp only [visitAll, hdot, if_true]
        exact ⟨calls, hlog, hby, hw.skip hdot⟩
      | false =>
        -- the name is entered from the slot's handle, cut back to the directory's length
        have henter := ChildSlot.enter_look slot n w
        rw [hlen] at henter
        cases hlook : Handle.look w ((slot.file.path.truncate dir.len).append n) with
        | error e =>
          rw [hlook] at henter
          simp only [visitAll, hdot, Bool.false_eq_true, if_false, henter]
          exact ⟨[], by simp, by simp, Walked.statFail hdot hlook items⟩
        | ok k =>
          rw [hlook] at henter
          simp only [visitAll, hdot, Bool.false_eq_true, if_false, henter, Visitor.recorded]
          -- the call as recorded, from the outcome `v` of the visit
          obtain ⟨v, hv⟩ : ∃ v, visit ⟨(slot.file.path.truncate dir.len).append n, some k⟩ n s w = v :=
            ⟨_, rfl⟩
          rw [hv]
          have hby : Call.By visit ⟨⟨(slot.file.path.truncate dir.len).append n, some k⟩, n, w,
              v.result, v.world, v.child⟩ :=
            ⟨s, by rw [hv], by rw [hv], by rw [hv]⟩
          have hc : Walked.Entered dir slot.file.path w n
              ⟨⟨(slot.file.path.truncate dir.len).append n, some k⟩, n, w, v.result, v.world,
                v.child⟩ :=
            ⟨⟨k, rfl, hlook⟩, rfl, rfl⟩
          obtain ⟨⟨r, s', w'⟩, child'⟩ := v
          cases r with
          | error e => exact ⟨[_], rfl, by simpa using hby, Walked.visitFail hdot hc rfl items⟩
          | ok u =>
            -- the walk goes on from the handle the visitor left
            obtain ⟨calls, hlog, hby', hw⟩ := ih ⟨child', dir.len⟩ s' _ w' rfl
            exact ⟨_ :: calls, by simpa using hlog, List.forall_mem_cons.mpr ⟨hby, hby'⟩,
              Walked.cons hdot hc rfl hw⟩

end

/-- **The walk of a directory.** Opening the directory fails before any call of the visitor;
otherwise the walk goes over the names the directory lists. Over any listing at all, in any
order and whatever failure ends it, the calls are calls of the visitor as `Walked` describes
them, starting from a handle on the directory's own path; and with a visitor that leaves the
child on the path it got it on, each call's handle is on the directory's path with the name
appended. -/
theorem walk_visits_each_entry_once {σ : Type} (d : Handle) (visit : Visitor σ) (s : σ)
    (w : World) :
    (∀ e, w.opendir d.path.bytes = .error e →
      walk d visit.recorded (s, []) w =
        ⟨.error (.system "opendir" d.path (.ofErrno e)), (s, []), w⟩) ∧
    (∀ names, w.opendir d.path.bytes = .ok names →
      walk d visit.recorded (s, []) w =
        visitAll d.path visit.recorded (ChildSlot.new d) (names.map .ok) (s, []) w) ∧
    ∀ items : Listing, (∀ n ∈ items.names, EntryName n) →
      let t := visitAll d.path visit.recorded (ChildSlot.new d) items (s, []) w
      (∀ c ∈ t.state.2, c.By visit) ∧ Walked d.path d.path items w t.state.2 t.result t.world ∧
      (visit.KeepsPath → ∀ c ∈ t.state.2, c.child.path = d.path.append c.name) := by
  refine ⟨?_, ?_, ?_⟩
  · intro e he
    simp [walk, he]
  · intro names hn
    simp [walk, hn]
  · intro items hnames
    obtain ⟨calls, hlog, hby, hw⟩ :=
      visitAll_walked d.path visit items (ChildSlot.new d) s [] w rfl
    simp only [List.nil_append] at hlog
    dsimp only
    rw [hlog]
    refine ⟨hby, hw, fun hkeep => ?_⟩
    -- a call of a path-keeping visitor leaves its handle where it got it
    have hleft : ∀ c ∈ calls, c.left.path = c.child.path := by
      intro c hc
      obtain ⟨s', -, -, hchild⟩ := hby c hc
      rw [← hchild, hkeep]
    have hentry : ∀ c ∈ calls, EntryName c.name :=
      fun c hc => hnames c.name (hw.inOrder.subset (List.mem_map_of_mem hc))
    exact hw.paths.append_name (List.prefix_refl _) hleft hentry

/-- The listing `., a` of `d`, cut short by a failure to read, walked with a visitor that does
nothing. -/
theorem walk_visits_dot_name_then_failure :
    (∀ n ∈ Listing.names [.ok Bytes.dot, .ok [97], .error .noEntry], EntryName n) ∧
      let t := visitAll ⟨[100]⟩ (Visitor.recorded (fun c _ s w => ⟨⟨.ok (), s, w⟩, c⟩ : Visitor Unit))
        (ChildSlot.new (Handle.new ⟨[100]⟩)) [.ok Bytes.dot, .ok [97], .error .noEntry] ((), [])
        default
      (∀ c ∈ t.state.2, c.By (fun c _ s w => ⟨⟨.ok (), s, w⟩, c⟩ : Visitor Unit)) ∧
      Walked ⟨[100]⟩ ⟨[100]⟩ [.ok Bytes.dot, .ok [97], .error .noEntry] default t.state.2 t.result
        t.world ∧
      (Visitor.KeepsPath (fun c _ s w => ⟨⟨.ok (), s, w⟩, c⟩ : Visitor Unit) →
        ∀ c ∈ t.state.2, c.child.path = Path.append ⟨[100]⟩ c.name) :=
  have h : ∀ n ∈ Listing.names [.ok Bytes.dot, .ok [97], .error .noEntry], EntryName n := by
    decide
  ⟨h, (walk_visits_each_entry_once (Handle.new ⟨[100]⟩)
    (fun c _ s w => ⟨⟨.ok (), s, w⟩, c⟩ : Visitor Unit) () default).2.2 _ h⟩

/-- **A visitor that leaves another handle moves the walk.** Walking `d`, which lists the files
`a` and `b`, with a visitor that leaves a handle on `/` in place of the child, hands over `d/a`
and then `/b`, the file `b` of `/`, not `d/b`. -/
theorem walk_after_replaced_child :
    let t := visitAll ⟨[100]⟩
      (Visitor.recorded (fun _ _ s w => ⟨⟨.ok (), s, w⟩, Handle.new ⟨[47]⟩⟩ : Visitor Unit))
      (ChildSlot.new (Handle.new ⟨[100]⟩)) [.ok [97], .ok [98]] ((), [])
      ⟨.dir 0o755 .system [([100], .dir 0o755 .user [([97], .file []), ([98], .file [])]),
        ([98], .file [])], .live []⟩
    t.result = .ok () ∧
      t.state.2.map (fun c => (c.name, c.child.path)) = [([97], ⟨[100, 47, 97]⟩), ([98], ⟨[47, 98]⟩)] ∧
      Path.append ⟨[100]⟩ [98] ≠ ⟨[47, 98]⟩ := by
  intro t
  have hw : (⟨.dir 0o755 .system [([100], .dir 0o755 .user [([97], .file []), ([98], .file [])]),
      ([98], .file [])], .live []⟩ : World).Sound := ⟨⟨_, _, _, rfl⟩, ⟨_, _, _, rfl⟩⟩
  -- `lstat` finds the file `a` of `d` at `d/a`, and the file `b` of `/` at `/b`
  have hd : World.resolveParent ⟨.dir 0o755 .system [([100], .dir 0o755 .user [([97], .file []),
      ([98], .file [])]), ([98], .file [])], .live []⟩ [100] = .ok (.live [], .name [100] false) :=
    World.resolveParent_single rfl rfl rfl rfl rfl
  have ha : Handle.look ⟨.dir 0o755 .system [([100], .dir 0o755 .user [([97], .file []),
      ([98], .file [])]), ([98], .file [])], .live []⟩ (Path.append ⟨[100]⟩ [97]) = .ok .regular :=
    Handle.look_of_lstat (World.lstat_of_route hw (World.resolveParent_append_name hw hd
      (World.lookup_of_get? rfl (by decide)) rfl (by decide : EntryName [97]) rfl
      (by decide : (Path.append ⟨[100]⟩ [97]).len < pathMax))
      (World.lookup_of_get? rfl (by decide : [97].length ≤ nameMax)) (fun h => nomatch h))
  have hb : World.lstat ⟨.dir 0o755 .system [([100], .dir 0o755 .user [([97], .file []),
      ([98], .file [])]), ([98], .file [])], .live []⟩ [47, 98] = .ok (.file []) :=
    World.lstat_of_route hw (World.resolveParent_single rfl rfl rfl rfl rfl)
      (World.lookup_of_get? rfl (by decide : [98].length ≤ nameMax)) (by decide)
  -- the first name is entered from `d`, the second from the handle on `/` the visitor left
  have h1 : (ChildSlot.new (Handle.new ⟨[100]⟩)).enter [97] ⟨.dir 0o755 .system [([100],
      .dir 0o755 .user [([97], .file []), ([98], .file [])]), ([98], .file [])], .live []⟩ =
      (.ok .regular, ⟨⟨Path.append ⟨[100]⟩ [97], some .regular⟩, 1⟩) :=
    ChildSlot.enter_of_look ha
  have h2 : (⟨Handle.new ⟨[47]⟩, 1⟩ : ChildSlot).enter [98] ⟨.dir 0o755 .system [([100],
      .dir 0o755 .user [([97], .file []), ([98], .file [])]), ([98], .file [])], .live []⟩ =
      (.ok .regular, ⟨⟨⟨[47, 98]⟩, some .regular⟩, 1⟩) :=
    ChildSlot.enter_of_look (Handle.look_of_lstat hb)
  have hda : isDotEntry [97] = false := rfl
  have hdb : isDotEntry [98] = false := rfl
  simp only [t, visitAll, hda, hdb, Bool.false_eq_true, if_false, h1, h2, Visitor.recorded]
  exact ⟨trivial, rfl, by decide⟩

end DirTree
