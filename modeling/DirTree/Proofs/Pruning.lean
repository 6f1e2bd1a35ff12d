import DirTree.Proofs.Calls

/-!
# Taking a subtree out

A recursive removal takes out, one after the other, every entry below a directory, each
directory after what it holds. The world that this leaves is described here without its steps:

    w.prune Lp c      the entry `c` of the directory at `Lp` gone, with all that lies below it
    w.clearAt L       the directory at `L` emptied: each of its entries pruned, in listing order

A working directory inside a pruned entry is not lost: it becomes a removed spot, a chain of
`gone` directories (each with its bits and owner) that hangs from the directory at `Lp`. What a
chain hangs from, its `base`, is all that soundness needs; it moves up to `Lp` exactly when it
lay inside the pruned entry (`base_buryAll_dirsPost`). Pruning keeps a world sound and makes it
smaller (`prune_sound`, `prune_extends`), and once every entry of a directory is pruned, taking
the emptied directory out is pruning it (`prune_of_cleared`).
-/

namespace DirTree

/-- A directory that a removal takes out: where it was, its bits and its owner. -/
structure Removed where
  loc : Loc
  mode : Nat
  owner : Owner

namespace Node

mutual
/-- The directories of the tree at `loc`, each after every directory below it, siblings in
listing order: the order in which a removal takes them out. -/
def dirsPost (loc : Loc) : Node → List Removed
  | .dir m o es => dirsPostOf loc es ++ [⟨loc, m, o⟩]
  | _ => []

def dirsPostOf (loc : Loc) : List (Bytes × Node) → List Removed
  | [] => []
  | (n, c) :: es => dirsPost (loc ++ [n]) c ++ dirsPostOf loc es
end

mutual
/-- A tree in which every directory lists each name once, as a filesystem's do. -/
def Distinct : Node → Prop
  | .dir _ _ es => (es.map (·.1)).Nodup ∧ DistinctOf es
  | _ => True

def DistinctOf : List (Bytes × Node) → Prop
  | [] => True
  | (_, c) :: es => c.Distinct ∧ DistinctOf es
end

end Node

namespace Spot

def buryAll (ds : List Removed) (s : Spot) : Spot :=
  ds.foldl (fun s d => s.bury d.loc d.mode d.owner) s

/-- What a spot hangs from: itself, or the holder at the end of a chain of removed
directories. -/
def base : Spot → Spot
  | .gone _ _ p => p.base
  | s => s

end Spot

namespace World

/-- The world with the entry `c` of the directory at `Lp` gone, with everything below it, and a
working directory in it removed. -/
def prune (w : World) (Lp : Loc) (c : Bytes) : World :=
  { root := w.root.modifyAt Lp (Node.erase c),
    cwd := Spot.buryAll ((w.root.get? (Lp ++ [c])).elim [] (Node.dirsPost (Lp ++ [c]))) w.cwd }

/-- The world with the entries `names` of the directory at `L` pruned, one after the other. -/
def pruneAll (w : World) (L : Loc) (names : List Bytes) : World :=
  names.foldl (fun u n => u.prune L n) w

/-- The world with the directory at `L` emptied: each of its entries pruned, in listing order. -/
def clearAt (w : World) (L : Loc) : World :=
  w.pruneAll L ((w.root.get? L).elim [] Node.names)

end World

/-! ## The directories a removal takes out -/

namespace Node

@[simp] theorem dirsPost_dir (loc : Loc) (m : Nat) (o : Owner) (es : List (Bytes × Node)) :
    (Node.dir m o es).dirsPost loc = dirsPostOf loc es ++ [⟨loc, m, o⟩] := by
  simp [dirsPost]

@[simp] theorem dirsPostOf_nil (loc : Loc) : dirsPostOf loc [] = [] := by
  simp [dirsPostOf]

@[simp] theorem dirsPostOf_cons (loc : Loc) (n : Bytes) (c : Node) (es : List (Bytes × Node)) :
    dirsPostOf loc ((n, c) :: es) = c.dirsPost (loc ++ [n]) ++ dirsPostOf loc es := by
  simp [dirsPostOf]

mutual
/-- Every directory a removal of the tree at `loc` takes out lies at or below `loc`. -/
theorem prefix_of_mem_dirsPost {d : Removed} : ∀ {loc : Loc} (c : Node),
    d ∈ c.dirsPost loc → loc <+: d.loc
  | loc, .dir m o es, h => by
    rw [dirsPost_dir, List.mem_append, List.mem_singleton] at h
    rcases h with h | rfl
    · obtain ⟨y, hy⟩ := prefix_of_mem_dirsPostOf es h
      exact (List.prefix_append loc [y]).trans hy
    · exact List.prefix_refl _
  | _, .file _, h | _, .link _, h | _, .magic _, h | _, .fifo, h | _, .socket, h
  | _, .device _, h => by simp [dirsPost] at h

theorem prefix_of_mem_dirsPostOf {d : Removed} : ∀ {loc : Loc} (es : List (Bytes × Node)),
    d ∈ dirsPostOf loc es → ∃ y, loc ++ [y] <+: d.loc
  | _, [], h => by simp at h
  | loc, (y, c) :: es, h => by
    rw [dirsPostOf_cons, List.mem_append] at h
    rcases h with h | h
    · exact ⟨y, prefix_of_mem_dirsPost c h⟩
    · exact prefix_of_mem_dirsPostOf es h
end

mutual
/-- In a tree that lists each name once, every directory a removal takes out is there, with the
bits and owner it is taken out with. -/
theorem get?_of_mem_dirsPost {root : Node} : ∀ (c : Node) {loc : Loc} {d : Removed},
    root.get? loc = some c → c.Distinct → d ∈ c.dirsPost loc →
      ∃ es, root.get? d.loc = some (.dir d.mode d.owner es)
  | .dir m o es, loc, d, hc, hdist, h => by
    rw [dirsPost_dir, List.mem_append, List.mem_singleton] at h
    rcases h with h | rfl
    · exact get?_of_mem_dirsPostOf es hc hdist.1 (fun _ he => he) hdist.2 h
    · exact ⟨es, hc⟩
  | .file _, _, _, _, _, h | .link _, _, _, _, _, h | .magic _, _, _, _, _, h
  | .fifo, _, _, _, _, h | .socket, _, _, _, _, h | .device _, _, _, _, _, h => by
    simp [dirsPost] at h

theorem get?_of_mem_dirsPostOf {root : Node} : ∀ (es : List (Bytes × Node)) {loc : Loc}
    {m : Nat} {o : Owner} {all : List (Bytes × Node)} {d : Removed},
    root.get? loc = some (.dir m o all) → (all.map (·.1)).Nodup → (∀ e ∈ es, e ∈ all) →
      DistinctOf es → d ∈ dirsPostOf loc es →
      ∃ es', root.get? d.loc = some (.dir d.mode d.owner es')
  | [], _, _, _, _, _, _, _, _, _, h => by simp at h
  | (y, c) :: es, loc, m, o, all, d, hD, hnd, hsub, hdist, h => by
    rw [dirsPostOf_cons, List.mem_append] at h
    rcases h with h | h
    · have hc : root.get? (loc ++ [y]) = some c := by
        rw [get?_snoc hD, child?_dir]
        exact lookup_of_mem hnd (hsub _ List.mem_cons_self)
      exact get?_of_mem_dirsPost c hc hdist.1 h
    · exact get?_of_mem_dirsPostOf es hD hnd (fun e he => hsub e (List.mem_cons_of_mem _ he))
        hdist.2 h
end

end Node

/-! ## Removed working directories -/

namespace Spot

@[simp] theorem buryAll_nil (s : Spot) : buryAll [] s = s := rfl

@[simp] theorem buryAll_cons (d : Removed) (ds : List Removed) (s : Spot) :
    buryAll (d :: ds) s = buryAll ds (s.bury d.loc d.mode d.owner) := rfl

theorem buryAll_append (ds ds' : List Removed) (s : Spot) :
    buryAll (ds ++ ds') s = buryAll ds' (buryAll ds s) := by
  simp [buryAll, List.foldl_append]

/-- Removing a directory moves a spot's base up to its holder when the base was that directory. -/
theorem base_bury (loc : Loc) (m : Nat) (o : Owner) :
    ∀ s : Spot, (s.bury loc m o).base = if s.base = .live loc then .live loc.dropLast else s.base
  | .live l => by
    by_cases h : l = loc
    · simp [bury, base, h]
    · simp [bury, base, h]
  | .gone _ _ p => base_bury loc m o p
  | .held _ => by simp [bury, base]

theorem base_buryAll_of_ne :
    ∀ (ds : List Removed) (s : Spot), (∀ d ∈ ds, s.base ≠ .live d.loc) →
      (buryAll ds s).base = s.base
  | [], _, _ => rfl
  | d :: ds, s, h => by
    have hd : (s.bury d.loc d.mode d.owner).base = s.base := by
      rw [base_bury, if_neg (h d List.mem_cons_self)]
    rw [buryAll_cons, base_buryAll_of_ne ds _ (by
      rw [hd]
      exact fun d' hd' => h d' (List.mem_cons_of_mem _ hd')), hd]

end Spot

namespace Node

/-- Removing a tree leaves a base outside it where it was. -/
theorem base_buryAll_dirsPost_outside (c : Node) {loc b : Loc} {s : Spot}
    (hs : s.base = .live b) (hb : ¬ loc <+: b) :
    (Spot.buryAll (c.dirsPost loc) s).base = .live b := by
  rw [Spot.base_buryAll_of_ne _ _ fun d hd hbd => hb ?_, hs]
  rw [hs, Spot.live.injEq] at hbd
  exact hbd ▸ prefix_of_mem_dirsPost c hd

theorem base_buryAll_dirsPostOf_self (es : List (Bytes × Node)) {loc : Loc} {s : Spot}
    (hs : s.base = .live loc) : (Spot.buryAll (dirsPostOf loc es) s).base = .live loc := by
  rw [Spot.base_buryAll_of_ne _ _ fun d hd hbd => ?_, hs]
  obtain ⟨y, hy⟩ := prefix_of_mem_dirsPostOf es hd
  rw [hs, Spot.live.injEq] at hbd
  have := hbd ▸ hy.length_le
  simp only [List.length_append, List.length_singleton] at this
  omega

mutual
/-- **A removed working directory hangs from the holder of the removed tree.** A spot whose
base is a directory of the tree at `loc` has its base moved to the directory holding `loc`
once the tree is removed, whatever else hangs in the chain. -/
theorem base_buryAll_dirsPost : ∀ (c : Node) {loc rel : Loc} {s : Spot},
    (∃ m o es, c.get? rel = some (.dir m o es)) → s.base = .live (loc ++ rel) →
      (Spot.buryAll (c.dirsPost loc) s).base = .live loc.dropLast
  | .dir m o es, loc, rel, s, hrel, hs => by
    have hmid : (Spot.buryAll (dirsPostOf loc es) s).base = .live loc := by
      cases rel with
      | nil => exact base_buryAll_dirsPostOf_self es (by simpa using hs)
      | cons x rel =>
        obtain ⟨m', o', es', hrel⟩ := hrel
        rw [get?_cons, child?_dir] at hrel
        cases hx : es.lookup x with
        | none => simp [hx] at hrel
        | some cx =>
          rw [hx, Option.bind_some] at hrel
          exact base_buryAll_dirsPostOf es hx ⟨m', o', es', hrel⟩ hs
    rw [dirsPost_dir, Spot.buryAll_append, Spot.buryAll_cons, Spot.buryAll_nil, Spot.base_bury,
      hmid, if_pos rfl]
  | .file _, _, rel, _, hrel, _ | .link _, _, rel, _, hrel, _ | .magic _, _, rel, _, hrel, _
  | .fifo, _, rel, _, hrel, _ | .socket, _, rel, _, hrel, _
  | .device _, _, rel, _, hrel, _ => by
    obtain ⟨m, o, es, hrel⟩ := hrel
    cases rel <;> simp [get?_cons, child?, entries] at hrel

theorem base_buryAll_dirsPostOf : ∀ (es : List (Bytes × Node)) {loc : Loc} {x : Bytes}
    {cx : Node} {rel : Loc} {s : Spot}, es.lookup x = some cx →
      (∃ m o es', cx.get? rel = some (.dir m o es')) → s.base = .live (loc ++ x :: rel) →
      (Spot.buryAll (dirsPostOf loc es) s).base = .live loc
  | [], _, _, _, _, _, hx, _, _ => by simp at hx
  | (y, c) :: es, loc, x, cx, rel, s, hx, hrel, hs => by
    rw [dirsPostOf_cons, Spot.buryAll_append]
    by_cases hxy : x = y
    · -- the entry that holds the base: removing it moves the base up to `loc`
      subst hxy
      rw [List.lookup_cons_self, Option.some.injEq] at hx
      subst hx
      have hin : (Spot.buryAll (c.dirsPost (loc ++ [x])) s).base = .live loc := by
        have hs' : s.base = .live ((loc ++ [x]) ++ rel) := by simpa using hs
        have h := base_buryAll_dirsPost c hrel hs'
        rwa [List.dropLast_concat] at h
      exact base_buryAll_dirsPostOf_self es hin
    · -- an entry beside it leaves the base alone
      rw [Node.lookup_cons_ne _ _ hxy] at hx
      refine base_buryAll_dirsPostOf es hx hrel ?_
      rw [base_buryAll_dirsPost_outside c hs]
      intro hp
      have := (List.prefix_append_right_inj loc).mp hp
      exact hxy (List.singleton_prefix_cons_iff.mp this).symm
end

end Node

/-! ## Pruning keeps a world sound and makes it smaller -/

namespace World

variable {w : World} {Lp L : Loc} {c : Bytes}

@[simp] theorem prune_root : (w.prune Lp c).root = w.root.modifyAt Lp (Node.erase c) := rfl

@[simp] theorem prune_cwd :
    (w.prune Lp c).cwd =
      Spot.buryAll ((w.root.get? (Lp ++ [c])).elim [] (Node.dirsPost (Lp ++ [c]))) w.cwd := rfl

theorem DirSpot.base_live : ∀ {s : Spot}, w.DirSpot s → ∃ b, s.base = .live b ∧ w.DirSpot (.live b)
  | .live b, h => ⟨b, rfl, h⟩
  | .gone _ _ p, h => DirSpot.base_live (s := p) h
  | .held _, h => h.elim

theorem dirSpot_of_base {b : Loc} : ∀ {s : Spot}, s.base = .live b → w.DirSpot (.live b) →
    w.DirSpot s
  | .live _, h, hb => by
    cases h
    exact hb
  | .gone _ _ p, h, hb => dirSpot_of_base (s := p) h hb
  | .held _, h, _ => by cases h

theorem prune_keeps {b : Loc} (hb : ¬ Lp ++ [c] <+: b) (h : w.DirSpot (.live b)) :
    (w.prune Lp c).DirSpot (.live b) := by
  obtain ⟨m, o, es, hd⟩ := h
  obtain ⟨x', hx', hs⟩ := Node.get?_modifyAt_erase_of_not_prefix hb hd
  obtain ⟨es', rfl⟩ := Node.Shape.of_dir hs
  exact ⟨m, o, es', hx'⟩

theorem not_prefix_self (Lp : Loc) (c : Bytes) : ¬ Lp ++ [c] <+: Lp := by
  intro h
  have := h.length_le
  simp only [List.length_append, List.length_singleton] at this
  omega

/-- **Pruning keeps a world sound.** The root stays a directory, and a working directory inside
the pruned entry now hangs from the directory at `Lp`. -/
theorem prune_sound (hw : w.Sound) (hL : w.DirSpot (.live Lp)) (c : Bytes) :
    (w.prune Lp c).Sound := by
  refine ⟨prune_keeps (fun h => by simpa using h.length_le) hw.root, ?_⟩
  obtain ⟨b, hb, hdb⟩ := hw.cwd.base_live
  by_cases hin : Lp ++ [c] <+: b
  · -- the working directory lay in the pruned entry
    obtain ⟨rel, rfl⟩ := hin
    obtain ⟨m, o, es, hd⟩ := hdb
    rw [Node.get?_append] at hd
    cases hn : w.root.get? (Lp ++ [c]) with
    | none => simp [hn] at hd
    | some n =>
      rw [hn, Option.bind_some] at hd
      refine dirSpot_of_base ?_ (prune_keeps (not_prefix_self Lp c) hL)
      have h := Node.base_buryAll_dirsPost n ⟨m, o, es, hd⟩ hb
      rw [List.dropLast_concat] at h
      simpa [hn] using h
  · refine dirSpot_of_base ?_ (prune_keeps hin hdb)
    cases hn : w.root.get? (Lp ++ [c]) with
    | none => simpa [hn] using hb
    | some n => simpa [hn] using Node.base_buryAll_dirsPost_outside n hb hin

theorem pruneAll_sound (L : Loc) :
    ∀ (ns : List Bytes) (u : World), u.Sound → u.DirSpot (.live L) → (u.pruneAll L ns).Sound
  | [], _, hu, _ => hu
  | n :: ns, u, hu, hL =>
    pruneAll_sound L ns (u.prune L n) (prune_sound hu hL n) (prune_keeps (not_prefix_self L n) hL)

theorem clearAt_sound (hw : w.Sound) (L : Loc) : (w.clearAt L).Sound := by
  unfold clearAt
  cases hL : w.root.get? L with
  | none => exact hw
  | some n =>
    cases n with
    | dir m o es => exact pruneAll_sound L _ w hw ⟨m, o, es, hL⟩
    | _ => exact hw

/-! ### Covering removed spots -/

variable {X : World} {l : Loc} {m : Nat} {o : Owner} {es : List (Bytes × Node)}

theorem Covers.bury_self (hl : X.root.get? l = some (.dir m o es)) :
    ∀ s : Spot, X.Covers (s.bury l m o) s
  | .live l' => by
    by_cases h : l' = l
    · subst h
      simpa [Spot.bury] using Covers.live hl (.refl _)
    · simpa [Spot.bury, h] using Covers.refl (.live l')
  | .gone _ _ p => .gone (bury_self hl p)
  | .held _ => .refl _

/-- A spot removed in the smaller world is still covered by what it stood for. -/
theorem Covers.bury (hl : X.root.get? l = some (.dir m o es)) {s₁ s : Spot}
    (h : X.Covers s₁ s) : X.Covers (s₁.bury l m o) s := by
  induction h with
  | refl s => exact bury_self hl s
  | live hl' _ ih => exact .live hl' ih
  | gone _ ih => exact .gone ih

theorem Covers.buryAll {ds : List Removed}
    (hds : ∀ d ∈ ds, ∃ es, X.root.get? d.loc = some (.dir d.mode d.owner es)) :
    ∀ {s₁ s : Spot}, X.Covers s₁ s → X.Covers (Spot.buryAll ds s₁) s := by
  induction ds with
  | nil => exact id
  | cons d ds ih =>
    intro s₁ s h
    obtain ⟨es, hd⟩ := hds d List.mem_cons_self
    exact ih (fun d' hd' => hds d' (List.mem_cons_of_mem _ hd')) (h.bury hd)

/-- **Pruning makes a world smaller.** Every node of the pruned world is still there, and its
removed working directory stands for the directory it was. -/
theorem prune_extends (hd : ∀ n, w.root.get? (Lp ++ [c]) = some n → n.Distinct) :
    (w.prune Lp c).Extends w := by
  refine ⟨Node.Grows.erase_at w.root Lp c, ?_⟩
  · rw [prune_cwd]
    cases hn : w.root.get? (Lp ++ [c]) with
    | none => exact .refl _
    | some n =>
      refine Covers.buryAll (fun d hd' => ?_) (.refl _)
      exact Node.get?_of_mem_dirsPost n hn (hd n hn) hd'

/-! ## Pruning the entries of a directory one after the other -/

theorem get?_prune_head {x : Bytes} {cx : Node} {rest : List (Bytes × Node)}
    (hD : w.root.get? L = some (.dir m o ((x, cx) :: rest)))
    (hnd : (((x, cx) :: rest).map (·.1)).Nodup) :
    (w.prune L x).root.get? L = some (.dir m o rest) := by
  rw [List.map_cons, List.nodup_cons] at hnd
  have hkeep : ∀ e ∈ rest, (e.1 != x) = true := by
    intro e he
    have hne : e.1 ≠ x := fun h => hnd.1 (h ▸ List.mem_map_of_mem (f := fun e => e.1) he)
    simpa using hne
  rw [prune_root, Node.get?_modifyAt_self, hD]
  simp [Node.erase, List.filter_eq_self.mpr hkeep]

theorem prune_cwd_head {x : Bytes} {cx : Node} {rest : List (Bytes × Node)}
    (hD : w.root.get? L = some (.dir m o ((x, cx) :: rest))) :
    (w.prune L x).cwd = Spot.buryAll (cx.dirsPost (L ++ [x])) w.cwd := by
  rw [prune_cwd, Node.get?_snoc hD, Node.child?_dir, List.lookup_cons_self]
  rfl

theorem clearAt_eq (hD : w.root.get? L = some (.dir m o es)) :
    w.clearAt L = w.pruneAll L (es.map (·.1)) := by
  rw [clearAt, hD]
  rfl

theorem clearAt_prune_head {x : Bytes} {cx : Node} {rest : List (Bytes × Node)}
    (hD : w.root.get? L = some (.dir m o ((x, cx) :: rest)))
    (hnd : (((x, cx) :: rest).map (·.1)).Nodup) : (w.prune L x).clearAt L = w.clearAt L := by
  rw [clearAt_eq (get?_prune_head hD hnd), clearAt_eq hD]
  rfl

theorem pruneAll_entries :
    ∀ (xs ys : List (Bytes × Node)) (u : World), u.root.get? L = some (.dir m o (xs ++ ys)) →
      ((xs ++ ys).map (·.1)).Nodup →
      (u.pruneAll L (xs.map (·.1))).root.get? L = some (.dir m o ys) ∧
        (u.pruneAll L (xs.map (·.1))).cwd = Spot.buryAll (Node.dirsPostOf L xs) u.cwd
  | [], _, _, hD, _ => ⟨hD, rfl⟩
  | (x, cx) :: xs, ys, u, hD, hnd => by
    obtain ⟨hget, hcwd⟩ := pruneAll_entries xs ys (u.prune L x) (get?_prune_head hD hnd)
      (List.nodup_cons.mp hnd).2
    refine ⟨hget, ?_⟩
    show ((u.prune L x).pruneAll L (xs.map (·.1))).cwd = _
    rw [hcwd, prune_cwd_head hD, Node.dirsPostOf_cons, Spot.buryAll_append]

/-- **Clearing a directory.** Once each entry is pruned, the directory is there and empty, and
the working directory is removed along with every directory that held it. -/
theorem clearAt_cleared (hD : w.root.get? L = some (.dir m o es)) (hnd : (es.map (·.1)).Nodup) :
    (w.clearAt L).root.get? L = some (.dir m o []) ∧
      (w.clearAt L).cwd = Spot.buryAll (Node.dirsPostOf L es) w.cwd := by
  rw [clearAt_eq hD]
  exact pruneAll_entries es [] w (by simpa using hD) (by simpa using hnd)

theorem pruneAll_erase_root (Lp : Loc) (c : Bytes) :
    ∀ (ns : List Bytes) (u : World),
      (u.pruneAll (Lp ++ [c]) ns).root.modifyAt Lp (Node.erase c) =
        u.root.modifyAt Lp (Node.erase c)
  | [], _ => rfl
  | n :: ns, u => by
    show ((u.prune (Lp ++ [c]) n).pruneAll (Lp ++ [c]) ns).root.modifyAt Lp (Node.erase c) = _
    rw [pruneAll_erase_root Lp c ns, prune_root, Node.modifyAt_append, Node.modifyAt_modifyAt]
    congr 1
    funext x
    exact Node.erase_modifyAt_cons x c [] (Node.erase n)

/-- **Taking out an emptied directory is pruning it.** Clearing the directory at `Lp ++ [c]`,
then dropping its entry and removing a working directory that is or was in it, leaves the world
that pruning the entry leaves. -/
theorem prune_of_cleared (hn : w.root.get? (Lp ++ [c]) = some (.dir m o es))
    (hnd : (es.map (·.1)).Nodup) :
    { (w.clearAt (Lp ++ [c])).drop Lp c with
        cwd := (w.clearAt (Lp ++ [c])).cwd.bury (Lp ++ [c]) m o } = w.prune Lp c := by
  obtain ⟨-, hcwd⟩ := clearAt_cleared hn hnd
  have hroot : (w.clearAt (Lp ++ [c])).root.modifyAt Lp (Node.erase c) =
      w.root.modifyAt Lp (Node.erase c) := by
    rw [clearAt_eq hn]
    exact pruneAll_erase_root Lp c _ w
  show World.mk _ _ = World.mk _ _
  rw [drop, modify, hroot, hcwd, hn]
  simp [Spot.buryAll_append]

theorem prune_of_not_dir {n : Node} (hn : w.root.get? (Lp ++ [c]) = some n)
    (hnd : n.isDir = false) : w.prune Lp c = w.drop Lp c := by
  cases n with
  | dir => cases hnd
  | _ => simp [prune, drop, modify, hn, Node.dirsPost]

theorem clearAt_of_not_dir {n : Node} (hn : w.root.get? L = some n) (hnd : n.isDir = false) :
    w.clearAt L = w := by
  cases n with
  | dir => cases hnd
  | _ =>
    rw [clearAt, hn]
    rfl

theorem pruneAll_extends :
    ∀ (xs ys : List (Bytes × Node)) (u : World), u.root.get? L = some (.dir m o (xs ++ ys)) →
      ((xs ++ ys).map (·.1)).Nodup → Node.DistinctOf xs → (u.pruneAll L (xs.map (·.1))).Extends u
  | [], _, u, _, _, _ => .refl u
  | (x, cx) :: xs, ys, u, hD, hnd, hdist => by
    have hprune : (u.prune L x).Extends u := by
      refine prune_extends fun n hn => ?_
      rw [Node.get?_snoc hD, Node.child?_dir, List.cons_append, List.lookup_cons_self] at hn
      cases hn
      exact hdist.1
    exact (pruneAll_extends xs ys (u.prune L x) (get?_prune_head hD hnd)
      (List.nodup_cons.mp hnd).2 hdist.2).trans hprune

/-- **Clearing makes a world smaller**, when the directory lists each name once throughout. -/
theorem clearAt_extends {n : Node} (hn : w.root.get? L = some n) (hdist : n.Distinct) :
    (w.clearAt L).Extends w := by
  cases n with
  | dir m o es =>
    rw [clearAt_eq hn]
    exact pruneAll_extends es [] w (by simpa using hn) (by simpa using hdist.1) hdist.2
  | _ =>
    rw [clearAt_of_not_dir hn rfl]
    exact .refl w

/-- Pruning an entry leaves less than clearing it does: the cleared entry is dropped. -/
theorem prune_extends_cleared {x : Bytes} {cx : Node} (hx : w.root.get? (L ++ [x]) = some cx)
    (hdist : cx.Distinct) : (w.prune L x).Extends (w.clearAt (L ++ [x])) := by
  cases cx with
  | dir mx ox esx =>
    have hcl := clearAt_cleared hx hdist.1
    rw [← prune_of_cleared hx hdist.1]
    exact ⟨Node.Grows.erase_at _ L x, Covers.bury_self hcl.1 _⟩
  | _ =>
    rw [clearAt_of_not_dir hx rfl]
    exact prune_extends fun n hn => by
      rw [hx] at hn
      cases hn
      trivial

end World

end DirTree
