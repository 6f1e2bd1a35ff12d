import DirTree.Proofs.Growth

/-!
# What the system calls do

A call that names a path resolves its directory part and then treats its last component. In a
sound world this splits every resolution in two (`resolve_split`, `resolveParent_split`): the
walk of the components before the last, through every link, to a directory, and one step from
there. From the split:

    lstat p = ok n, n a directory   →  stat p = ok n
    mkdir p m = ok w'               →  w' = w.add dir c (dir (m % 1024) user []), c new in dir
                                       stat p = ok (dir (m % 1024) user [])  in w'

Each call that changes the world has one lemma that says everything a success did, and the
proofs about the tree operations use those, never the calls' definitions.
-/

namespace DirTree

open Bytes

theorem bind_eq_ok {ε α β : Type} {x : Except ε α} {f : α → Except ε β} {b : β} :
    x >>= f = .ok b ↔ ∃ a, x = .ok a ∧ f a = .ok b := by
  cases x <;> simp [bind, Except.bind]

theorem Last.ofComponent_eq_name {c n : Bytes} {b slash : Bool}
    (h : Last.ofComponent c b = .name n slash) :
    c = n ∧ slash = b ∧ (c == Bytes.dot) = false ∧ (c == Bytes.dotdot) = false := by
  unfold Last.ofComponent at h
  by_cases hdot : (c == Bytes.dot) = true
  · simp [hdot] at h
  by_cases hdd : (c == Bytes.dotdot) = true
  · simp [hdot, hdd] at h
  simp only [hdot, hdd, Bool.false_eq_true, if_false, Last.name.injEq] at h
  exact ⟨h.1, h.2.symm, by simpa using hdot, by simpa using hdd⟩

namespace World

variable {w : World}

theorem nodeOf_eq_ok {s : Spot} {n : Node} : w.nodeOf s = .ok n ↔ w.nodeAt s = some n := by
  unfold nodeOf
  cases w.nodeAt s <;> simp

theorem start_dirSpot (hw : w.Sound) {p : Bytes} {s : Spot} (h : w.start p = .ok s) :
    w.DirSpot s := by
  unfold start at h
  split at h
  · cases h
  · split at h
    · cases h
    · cases h
      split
      · exact hw.root
      · exact hw.cwd

theorem resolve_split (hw : w.Sound) {p : Bytes} {s : Spot} (hs : w.start p = .ok s)
    {cs : List Bytes} {c : Bytes} (hc : components p = cs ++ [c]) (fo md : Bool) :
    w.resolve p fo md = (w.walk false true true 0 s cs).bind fun r =>
      (w.walk false (fo || endsWithSlash p) (md || endsWithSlash p) r.links r.spot [c]).bind
        fun r' => .ok r'.spot := by
  unfold resolve
  rw [hs, hc]
  show (w.walk false _ _ 0 s (cs ++ [c])).bind _ = _
  rw [walk_append_last hw _ _ _ c true true 0 s cs rfl rfl (start_dirSpot hw hs)]
  cases w.walk false true true 0 s cs <;> rfl

theorem resolve_nil {p : Bytes} {s : Spot} (hs : w.start p = .ok s) (hc : components p = [])
    (fo md : Bool) :
    w.resolve p fo md = (w.walk false false (md || endsWithSlash p) 0 s []).bind fun r => .ok r.spot := by
  unfold resolve
  rw [hs, hc]
  show (w.walk false _ _ 0 s []).bind _ = _
  rw [World.walk.eq_1, World.walk.eq_1]
  rfl

theorem resolveParent_split (hw : w.Sound) {p : Bytes} {s : Spot} (hs : w.start p = .ok s)
    {cs : List Bytes} {c : Bytes} (hc : components p = cs ++ [c]) :
    w.resolveParent p = (w.walk false true true 0 s cs).bind fun r =>
      if (!w.allows r.spot searchBit) = true then .error .accessDenied
      else .ok (r.spot, Last.ofComponent c (endsWithSlash p)) := by
  unfold resolveParent parentFrom
  rw [hs, hc]
  show ((w.walk true false false 0 s (cs ++ [c])).bind _).bind _ = _
  rw [walk_append_last hw _ _ _ c true true 0 s cs rfl rfl (start_dirSpot hw hs)]
  cases w.walk false true true 0 s cs with
  | error e => rfl
  | ok r =>
    simp only [Except.bind]
    rw [walk_parent_last]
    by_cases hal : w.allows r.spot searchBit = true <;> simp [hal, pure, Except.pure]

/-- **The directory of a last name.** When a path's directory part resolves to `d` and its last
component is a name, the path's components are those before it and the name, the walk along
the first ends at `d`, through every link, and `d` may be searched. -/
theorem resolveParent_name (hw : w.Sound) {p : Bytes} {d : Spot} {c : Bytes} {slash : Bool}
    (h : w.resolveParent p = .ok (d, .name c slash)) :
    ∃ s cs r, w.start p = .ok s ∧ components p = cs ++ [c] ∧
      w.walk false true true 0 s cs = .ok r ∧ r.spot = d ∧ w.allows d searchBit = true ∧
      slash = endsWithSlash p ∧ (c == dot) = false ∧ (c == dotdot) = false := by
  obtain ⟨s, hs, -⟩ := bind_eq_ok.mp h
  rcases List.eq_nil_or_concat (components p) with hc | ⟨cs, c', hc⟩
  · -- a path without components has no last name: its walk stops at once
    exfalso
    unfold resolveParent parentFrom at h
    rw [hs, hc] at h
    change ((w.walk true false false 0 s []).bind _).bind _ = _ at h
    rw [World.walk.eq_1] at h
    cases hn : w.nodeAt s with
    | none => simp [hn, Except.bind] at h
    | some n => simp [hn, Except.bind, pure, Except.pure] at h
  · rw [List.concat_eq_append] at hc
    rw [resolveParent_split hw hs hc] at h
    obtain ⟨r, hpre, hif⟩ := bind_eq_ok.mp h
    by_cases hal : w.allows r.spot searchBit = true
    · simp only [hal, Bool.not_true, Bool.false_eq_true, if_false, Except.ok.injEq,
        Prod.mk.injEq] at hif
      obtain ⟨hd, hlast⟩ := hif
      obtain ⟨rfl, hsl, hdot, hdd⟩ := Last.ofComponent_eq_name hlast
      exact ⟨s, cs, r, hs, hc, hpre, hd, hd ▸ hal, hsl, hdot, hdd⟩
    · simp [hal] at hif

/-- **A directory reached without following is reached by following**: `lstat` and `stat` agree
on a path that `lstat` finds a directory at. -/
theorem stat_of_lstat_dir (hw : w.Sound) {p : Bytes} {n : Node} (h : w.lstat p = .ok n)
    (hd : n.isDir = true) : w.stat p = .ok n := by
  obtain ⟨sp, hres, hnode⟩ := bind_eq_ok.mp h
  suffices hres' : w.resolve p true false = .ok sp by
    show (w.resolve p true false).bind w.nodeOf = _
    rw [hres']
    exact hnode
  obtain ⟨s, hs, -⟩ := bind_eq_ok.mp hres
  rcases List.eq_nil_or_concat (components p) with hc | ⟨cs, c, hc⟩
  · rw [resolve_nil hs hc] at hres ⊢
    exact hres
  · rw [List.concat_eq_append] at hc
    rw [resolve_split hw hs hc] at hres ⊢
    obtain ⟨r, hpre, hlast⟩ := bind_eq_ok.mp hres
    obtain ⟨r', hstep, hspot⟩ := bind_eq_ok.mp hlast
    cases hspot
    rw [hpre]
    show (w.walk false (true || endsWithSlash p) _ r.links r.spot [c]).bind _ = _
    cases hsl : endsWithSlash p with
    | true =>
      simp only [hsl, Bool.or_true] at hstep ⊢
      rw [hstep]
      rfl
    | false =>
      simp only [hsl, Bool.or_false] at hstep ⊢
      rw [walk_last_follow hstep ⟨n, nodeOf_eq_ok.mp hnode, hd⟩]
      rfl

/-- Where a name is looked up: the entry of a directory of the tree, whose name fits unless the
directory is the kernel's registry lacking it. -/
theorem slot_ok {cur : Spot} {c : Bytes} {loc : Loc} {here : Option Node}
    (h : w.slot cur c = .ok (loc, here)) :
    ∃ dloc d, cur = .live dloc ∧ w.root.get? dloc = some d ∧ loc = dloc ++ [c] ∧
      here = d.child? c ∧ (c.length ≤ nameMax ∨ ∃ m es, d = .dir m .registry es) := by
  cases cur with
  | gone => simp [slot] at h
  | held => simp [slot] at h
  | live dloc =>
    simp only [slot] at h
    cases hd : w.root.get? dloc with
    | none => simp [hd] at h
    | some d =>
      rw [hd] at h
      refine ⟨dloc, d, rfl, hd, ?_⟩
      cases hc : d.child? c with
      | none =>
        simp only [hc] at h
        split at h
        · cases h
        · simp only [Except.ok.injEq, Prod.mk.injEq] at h
          obtain ⟨rfl, rfl⟩ := h
          exact ⟨rfl, rfl, .inr ⟨_, _, rfl⟩⟩
        · split at h
          · cases h
          · simp only [Except.ok.injEq, Prod.mk.injEq] at h
            obtain ⟨rfl, rfl⟩ := h
            exact ⟨rfl, rfl, .inl (by omega)⟩
      | some n =>
        simp only [hc] at h
        split at h
        · cases h
        · simp only [Except.ok.injEq, Prod.mk.injEq] at h
          obtain ⟨rfl, rfl⟩ := h
          exact ⟨rfl, rfl, .inl (by omega)⟩

theorem mayCreate_not_registry {dloc : Loc} {m : Nat} {es : List (Bytes × Node)}
    (hd : w.root.get? dloc = some (.dir m .registry es)) : w.mayCreate (.live dloc) ≠ .ok () := by
  unfold mayCreate
  by_cases hal : w.allows (.live dloc) changeBits = true
  · simp [hal, inRegistry, ownerAt, nodeAt, hd, throw, throwThe, MonadExceptOf.throw]
  · simp [hal, throw, throwThe, MonadExceptOf.throw, bind, Except.bind]

/-- **What `mkdir` did.** A `mkdir` that succeeds resolved the directory part of its path to a
directory of the tree that lacked the last name (a name that fits) and let an entry be made,
and added there an empty directory of the user with the mode's low ten bits. -/
theorem mkdir_ok {w' : World} {path : Bytes} {mode : Nat} (h : w.mkdir path mode = .ok w') :
    ∃ dloc c slash d, w.resolveParent path = .ok (.live dloc, .name c slash) ∧
      w.root.get? dloc = some d ∧ d.child? c = none ∧ c.length ≤ nameMax ∧
      w.mayCreate (.live dloc) = .ok () ∧ w' = w.add dloc c (.dir (mode % 1024) .user []) := by
  unfold mkdir at h
  obtain ⟨⟨dir, last⟩, hr, h⟩ := bind_eq_ok.mp h
  cases last with
  | name c slash =>
    obtain ⟨⟨loc, here⟩, hs, h⟩ := bind_eq_ok.mp h
    obtain ⟨dloc, d, rfl, hd, -, rfl, hlen⟩ := slot_ok hs
    cases hc : d.child? c with
    | some n => simp [hc, throw, throwThe, MonadExceptOf.throw, bind, Except.bind] at h
    | none =>
      simp only [hc, Option.isSome_none, Bool.false_eq_true, if_false] at h
      obtain ⟨u, hm, h⟩ := bind_eq_ok.mp h
      obtain ⟨l, hl, h⟩ := bind_eq_ok.mp h
      cases hl
      cases h
      have hlen' : c.length ≤ nameMax := by
        rcases hlen with hlen | ⟨m, es, rfl⟩
        · exact hlen
        · exact absurd hm (mayCreate_not_registry hd)
      exact ⟨dloc, c, slash, d, hr, hd, hc, hlen', hm, rfl⟩
  | _ => simp [throw, throwThe, MonadExceptOf.throw] at h

/-- **A directory that `mkdir` made is there**: afterwards its path names it, through links. -/
theorem mkdir_stat (hw : w.Sound) {w' : World} {p : Bytes} {mode : Nat}
    (h : w.mkdir p mode = .ok w') : w'.stat p = .ok (.dir (mode % 1024) .user []) := by
  obtain ⟨dloc, c, slash, d, hrp, hd, hc, hlen, -, rfl⟩ := mkdir_ok h
  obtain ⟨s, cs, r, hs, hcs, hpre, hspot, hal, -, hdot, hdd⟩ := resolveParent_name hw hrp
  have he := add_extends (.dir (mode % 1024) .user []) hd hc
  -- the directory part asked for a directory, so `d` is one
  obtain ⟨m, o, es, hdir⟩ := nodeAt_dir_of_walk hpre
  rw [hspot] at hdir
  have hdd' : d = .dir m o es := by
    change w.root.get? dloc = _ at hdir
    rw [hd] at hdir
    exact Option.some.inj hdir
  subst hdd'
  have hget : (w.add dloc c (.dir (mode % 1024) .user [])).root.get? dloc =
      some (Node.insert c (.dir (mode % 1024) .user []) (.dir m o es)) := by
    show (w.root.modifyAt dloc _).get? dloc = _
    rw [Node.get?_modifyAt_self, hd]
    rfl
  have hl := lookup_of_child hget (Node.child?_insert_self _ rfl hc) hlen
  have hal' : (w.add dloc c (.dir (mode % 1024) .user [])).allows (.live dloc) searchBit = true := by
    rw [he.allows (.refl _) (show w.DirSpot (.live dloc) from ⟨m, o, es, hd⟩)]
    exact hal
  show ((w.add dloc c _).resolve p true false).bind (w.add dloc c _).nodeOf = _
  rw [resolve_split (he.sound hw) hs hcs, he.walk_live hw (start_dirSpot hw hs) hpre hspot]
  show (((w.add dloc c _).walk false _ _ r.links r.spot [c]).bind _).bind _ = _
  rw [hspot, walk_last_entry hdot hdd hal' hl (.inr (by simp [Kind.ofNode]))]
  simp only [Node.isDir, Bool.not_true, Bool.and_false, Bool.false_eq_true, if_false]
  exact nodeOf_eq_ok.mpr (get?_of_lookup_ok hl)

theorem mkdir_extends {w' : World} {path : Bytes} {mode : Nat} (h : w.mkdir path mode = .ok w') :
    w.Extends w' := by
  obtain ⟨dloc, c, -, d, -, hd, hc, -, -, rfl⟩ := mkdir_ok h
  exact add_extends _ hd hc

/-! ## Calls along a route

What `resolveParent` finds for a path, the directory `Lp` that holds the last component and
that component's name, is the path's *route*. Along a route the calls that read or remove the
entry reach it: each lemma below says when one succeeds, and with what. -/

theorem lookup_of_get? {Lp : Loc} {c : Bytes} {n : Node} (hn : w.root.get? (Lp ++ [c]) = some n)
    (hlen : c.length ≤ nameMax) : w.lookup (.live Lp) c = .ok (Lp ++ [c], n) := by
  cases hd : w.root.get? Lp with
  | none =>
    rw [Node.get?_append, hd] at hn
    cases hn
  | some d =>
    rw [Node.get?_snoc hd] at hn
    exact lookup_of_child hd hn hlen

/-- **The route of a path of one name.** A path whose only component is a name `c` has its route
in the directory it starts from (`/` for `/c`, the working directory for `c`), when that
directory may be searched. -/
theorem resolveParent_single {p : Bytes} {s : Spot} (hs : w.start p = .ok s) {c : Bytes}
    (hc : components p = [c]) (hdot : (c == dot) = false) (hdd : (c == dotdot) = false)
    (hal : w.allows s searchBit = true) :
    w.resolveParent p = .ok (s, .name c (endsWithSlash p)) := by
  unfold resolveParent parentFrom
  rw [hs, hc]
  show ((w.walk true false false 0 s [c]).bind _).bind _ = _
  rw [World.walk.eq_2]
  simp [hal, Last.ofComponent, hdot, hdd, Except.bind, pure, Except.pure]

/-- **Resolving along a route.** A path whose last name lies in `Lp` resolves to that entry,
unless the entry is a link that is followed, or not a directory where one is asked for. -/
theorem resolve_of_route (hw : w.Sound) {p : Bytes} {Lp L : Loc} {c : Bytes} {slash : Bool}
    {n : Node} (hroute : w.resolveParent p = .ok (.live Lp, .name c slash))
    (hl : w.lookup (.live Lp) c = .ok (L, n)) {fo md : Bool}
    (hf : (fo || slash) = false ∨ Kind.ofNode n ≠ .symlink)
    (hd : ((md || slash) && !n.isDir) = false) : w.resolve p fo md = .ok (.live L) := by
  obtain ⟨s, cs, r, hs, hcs, hpre, hspot, hal, hsl, hdot, hdd⟩ := resolveParent_name hw hroute
  rw [resolve_split hw hs hcs, hpre]
  show (w.walk false (fo || endsWithSlash p) (md || endsWithSlash p) r.links r.spot [c]).bind _ = _
  rw [← hsl, hspot, walk_last_entry hdot hdd hal hl hf, hd]
  rfl

theorem lstat_of_route (hw : w.Sound) {p : Bytes} {Lp L : Loc} {c : Bytes} {slash : Bool}
    {n : Node} (hroute : w.resolveParent p = .ok (.live Lp, .name c slash))
    (hl : w.lookup (.live Lp) c = .ok (L, n)) (hslash : slash = true → n.isDir = true) :
    w.lstat p = .ok n := by
  have hres : w.resolve p false false = .ok (.live L) := by
    cases slash with
    | false => exact resolve_of_route hw hroute hl (.inl rfl) (by simp)
    | true =>
      have hdir := hslash rfl
      obtain ⟨m, o, es, rfl⟩ := Node.isDir_iff.mp hdir
      exact resolve_of_route hw hroute hl (.inr (by simp [Kind.ofNode])) (by simp [hdir])
  show (w.resolve p false false).bind w.nodeOf = _
  rw [hres]
  exact nodeOf_eq_ok.mpr (get?_of_lookup_ok hl)

theorem opendir_of_resolve {p : Bytes} {L : Loc} {m : Nat} {o : Owner}
    {es : List (Bytes × Node)} (hres : w.resolve p true true = .ok (.live L))
    (hL : w.root.get? L = some (.dir m o es)) (hread : permits m o readBit = true) :
    w.opendir p = .ok (es.map (·.1)) := by
  have hnode : w.nodeAt (.live L) = some (.dir m o es) := hL
  simp [opendir, hres, allows, hnode, hread, nodeOf, bind, Except.bind, pure, Except.pure,
    Node.names, Node.entries]

theorem opendir_unreadable {p : Bytes} {s : Spot} (hres : w.resolve p true true = .ok s)
    (hread : w.allows s readBit = false) : w.opendir p = .error .accessDenied := by
  simp [opendir, hres, hread, bind, Except.bind, throw, throwThe, MonadExceptOf.throw]

/-- `opendir` along a route to a directory that grants read lists its names. -/
theorem opendir_of_route (hw : w.Sound) {p : Bytes} {Lp L : Loc} {c : Bytes} {slash : Bool}
    {m : Nat} {o : Owner} {es : List (Bytes × Node)}
    (hroute : w.resolveParent p = .ok (.live Lp, .name c slash))
    (hl : w.lookup (.live Lp) c = .ok (L, .dir m o es)) (hread : permits m o readBit = true) :
    w.opendir p = .ok (es.map (·.1)) :=
  opendir_of_resolve
    (resolve_of_route hw hroute hl (.inr (by simp [Kind.ofNode])) (by simp [Node.isDir]))
    (get?_of_lookup_ok hl) hread

/-- `unlink` along a route to a non-directory, in a directory that lets entries go, drops it. -/
theorem unlink_of_route {p : Bytes} {Lp L : Loc} {c : Bytes} {n : Node}
    (hroute : w.resolveParent p = .ok (.live Lp, .name c false))
    (hl : w.lookup (.live Lp) c = .ok (L, n)) (hnd : n.isDir = false)
    (hperm : w.mayRemove (.live Lp) = .ok ()) : w.unlink p = .ok (w.drop Lp c) := by
  simp [unlink, hroute, slot_of_lookup_ok hl, hperm, hnd, locOf, bind, Except.bind, pure,
    Except.pure]

/-- `rmdir` along a route to an empty directory of the user or the system, in a directory that
lets entries go, drops it, and a working directory that is or was in it is removed with it. -/
theorem rmdir_of_route {p : Bytes} {Lp L : Loc} {c : Bytes} {slash : Bool} {m : Nat} {o : Owner}
    (hroute : w.resolveParent p = .ok (.live Lp, .name c slash))
    (hl : w.lookup (.live Lp) c = .ok (L, .dir m o [])) (ho : o = .user ∨ o = .system)
    (hperm : w.mayRemove (.live Lp) = .ok ()) :
    w.rmdir p = .ok { w.drop Lp c with cwd := w.cwd.bury L m o } := by
  rcases ho with rfl | rfl <;>
    simp [rmdir, hroute, slot_of_lookup_ok hl, hperm, locOf, bind, Except.bind, pure, Except.pure]

theorem start_append_name {p : Path} {s : Spot} (hs : w.start p.bytes = .ok s) {x : Bytes}
    (hx : EntryName x) (hlen : (p.append x).len < pathMax) : w.start (p.append x).bytes = .ok s := by
  unfold start at hs ⊢
  by_cases h1 : pathMax ≤ p.bytes.length
  · simp [h1] at hs
  by_cases h2 : p.bytes.isEmpty = true
  · simp [h1, h2] at hs
  simp only [h1, h2, if_false, Bool.false_eq_true] at hs
  have hne : p.bytes ≠ [] := by simpa using h2
  have hlen' : ¬ pathMax ≤ (p.append x).bytes.length := by
    simpa [Path.len] using hlen
  rw [if_neg hlen', if_neg (by simpa using Path.append_name_ne_empty p hx),
    Path.startsWithSlash_append_name hne hx]
  exact hs

/-- **The route of a name in a named directory.** When a path names the directory at `L`,
through its links, a name appended to it has that directory as its route, once the directory
may be searched: the directory part of the longer path is walked exactly as the path itself. -/
theorem resolveParent_append_of_resolve (hw : w.Sound) {p : Path} {L : Loc}
    (hres : w.resolve p.bytes true true = .ok (.live L))
    (hsearch : w.allows (.live L) searchBit = true) {x : Bytes} (hx : EntryName x)
    (hdot : isDotEntry x = false) (hlen : (p.append x).len < pathMax) :
    w.resolveParent (p.append x).bytes = .ok (.live L, .name x false) := by
  obtain ⟨s, hs, hrest⟩ := bind_eq_ok.mp hres
  obtain ⟨r, hr, hspot⟩ := bind_eq_ok.mp hrest
  simp only [Bool.true_or] at hr
  have hspot' : r.spot = .live L := by
    injection hspot
  have hlast : Last.ofComponent x (endsWithSlash (p.append x).bytes) = .name x false := by
    unfold isDotEntry at hdot
    simp only [Bool.or_eq_false_iff] at hdot
    simp [Path.endsWithSlash_append_name p hx, Last.ofComponent, hdot.1, hdot.2]
  rw [resolveParent_split hw (start_append_name hs hx hlen) (Path.components_append_name p hx),
    hr]
  simp [hspot', hsearch, hlast, Except.bind]

/-- **The route of an entry's child.** Below a directory reached along a route, a name of it
has the directory as its route, once the directory may be searched. -/
theorem resolveParent_append_name (hw : w.Sound) {p : Path} {Lp L : Loc} {c : Bytes}
    {slash : Bool} {m : Nat} {o : Owner} {es : List (Bytes × Node)}
    (hroute : w.resolveParent p.bytes = .ok (.live Lp, .name c slash))
    (hl : w.lookup (.live Lp) c = .ok (L, .dir m o es)) (hsearch : permits m o searchBit = true)
    {x : Bytes} (hx : EntryName x) (hdot : isDotEntry x = false)
    (hlen : (p.append x).len < pathMax) :
    w.resolveParent (p.append x).bytes = .ok (.live L, .name x false) := by
  -- the directory the route leads to is what the path names through its links
  have hres : w.resolve p.bytes true true = .ok (.live L) :=
    resolve_of_route hw hroute hl (.inr (by simp [Kind.ofNode])) (by simp [Node.isDir])
  have hnode : w.nodeAt (.live L) = some (.dir m o es) := get?_of_lookup_ok hl
  exact resolveParent_append_of_resolve hw hres (by simp [allows, hnode, hsearch]) hx hdot hlen

theorem permits_search_of_change {m : Nat} {o : Owner} (h : permits m o changeBits = true) :
    permits m o searchBit = true := by
  -- the owner bits are below 8, and each of them that grants write and search grants search
  have key : ∀ k : Fin 8,
      ((k : Nat) &&& (2 ||| 1) == 2 ||| 1) = true → ((k : Nat) &&& 1 == 1) = true := by
    decide
  cases o <;> simp only [permits, changeBits, writeBit, searchBit] at h ⊢
  all_goals first
    | rfl
    | exact key ⟨m / 64 % 8, Nat.mod_lt _ (by decide)⟩ h

theorem mayRemove_of_dir {L : Loc} {m : Nat} {o : Owner} {es : List (Bytes × Node)}
    (hD : w.root.get? L = some (.dir m o es)) (ho : o = .user ∨ o = .system)
    (hperm : permits m o changeBits = true) : w.mayRemove (.live L) = .ok () := by
  rcases ho with rfl | rfl <;>
    simp [mayRemove, byKernel, inRegistry, ownerAt, allows, nodeAt, hD, hperm, pure, Except.pure]

theorem mayRemove_of_shape {w' : World} {s s' : Spot} {x x' : Node} (h : w.nodeAt s = some x)
    (h' : w'.nodeAt s' = some x') (hs : x.Shape x') : w'.mayRemove s' = w.mayRemove s := by
  cases x with
  | dir m o es =>
    obtain ⟨es', rfl⟩ := hs.of_dir
    simp [mayRemove, byKernel, inRegistry, ownerAt, allows, h, h']
  | _ =>
    rw [hs.of_not_dir rfl] at h'
    simp [mayRemove, byKernel, inRegistry, ownerAt, allows, h, h']

namespace Extends

variable {w' : World}

theorem start (he : w.Extends w') {p : Bytes} {s : Spot} (h : w.start p = .ok s) :
    ∃ s', w'.start p = .ok s' ∧ w'.Covers s s' := by
  unfold World.start at h ⊢
  by_cases hlen : pathMax ≤ p.length
  · simp [hlen] at h
  by_cases hemp : p.isEmpty = true
  · simp [hlen, hemp] at h
  simp only [hlen, hemp, if_false, Bool.false_eq_true, Except.ok.injEq] at h ⊢
  subst h
  by_cases habs : p.startsWithSlash = true
  · simp only [habs, if_true]
    exact ⟨_, rfl, .refl _⟩
  · simp only [habs, if_false, Bool.false_eq_true]
    exact ⟨_, rfl, he.cwd⟩

/-- What a path names in a world names, in a world that grew from it, a spot that stands for it. -/
theorem resolve (he : w.Extends w') (hw : w.Sound) {p : Bytes} {fo md : Bool} {s : Spot}
    (h : w.resolve p fo md = .ok s) : ∃ s', w'.resolve p fo md = .ok s' ∧ w'.Covers s s' := by
  obtain ⟨s₀, hs₀, h⟩ := bind_eq_ok.mp h
  obtain ⟨r, hr, h⟩ := bind_eq_ok.mp h
  cases h
  obtain ⟨s₀', hs₀', hc₀⟩ := he.start hs₀
  obtain ⟨r', hr', hc, -, -⟩ :=
    he.walk_ok hw false _ _ 0 s₀ _ (start_dirSpot hw hs₀) r hr s₀' hc₀
  refine ⟨r'.spot, ?_, hc⟩
  show (w'.start p).bind _ = _
  rw [hs₀']
  show (w'.walk false _ _ 0 s₀' _).bind _ = _
  rw [hr']
  rfl

/-- A node a path names is still named, of the same shape, in a world that grew. -/
theorem stat (he : w.Extends w') (hw : w.Sound) {p : Bytes} {n : Node} (h : w.stat p = .ok n) :
    ∃ n', w'.stat p = .ok n' ∧ n.Shape n' := by
  obtain ⟨s, hs, hn⟩ := bind_eq_ok.mp h
  obtain ⟨s', hs', hc⟩ := he.resolve hw hs
  obtain ⟨n', hn', hsh⟩ := he.nodeAt hc (nodeOf_eq_ok.mp hn)
  refine ⟨n', ?_, hsh⟩
  show (w'.resolve p true false).bind w'.nodeOf = _
  rw [hs']
  exact nodeOf_eq_ok.mpr hn'

/-- A route found in a world is the route in a world that grew from it. -/
theorem resolveParent (he : w.Extends w') (hw : w.Sound) {p : Bytes} {Lp : Loc} {c : Bytes}
    {slash : Bool} (h : w.resolveParent p = .ok (.live Lp, .name c slash)) :
    w'.resolveParent p = .ok (.live Lp, .name c slash) := by
  obtain ⟨s, cs, r, hs, hcs, hpre, hspot, hal, hsl, hdot, hdd⟩ := resolveParent_name hw h
  obtain ⟨s', hs', hcov⟩ := he.start hs
  obtain ⟨r', hr', hc, -, -⟩ :=
    he.walk_ok hw false true true 0 s cs (start_dirSpot hw hs) r hpre s' hcov
  rw [hspot] at hc
  have hdir : w.DirSpot (.live Lp) := by
    obtain ⟨m, o, es, hn⟩ := nodeAt_dir_of_walk hpre
    rw [hspot] at hn
    exact ⟨m, o, es, hn⟩
  have hal' : w'.allows (.live Lp) searchBit = true := by
    rw [he.allows (.refl _) hdir]
    exact hal
  rw [resolveParent_split (he.sound hw) hs' hcs, hr']
  simp [hc.live_eq, hal', Except.bind, hsl, Last.ofComponent, hdot, hdd]

end Extends

end World

end DirTree
