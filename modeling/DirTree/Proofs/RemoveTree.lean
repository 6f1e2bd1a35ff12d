import DirTree.Proofs.Pruning
import DirTree.Proofs.CacheCoherence
import DirTree.Tree.Remove

/-!
# What a removal removes

A removal classifies its path. Nothing there is fine (permissive) or `NotFound`; a directory is
emptied, when recursive, by removing each of its entries with the same flags, and then removed;
anything else is unlinked. Given enough levels, and a tree that can be taken out, the world a
removal leaves is the one `prune` describes: the entry at the path gone with everything below
it, and nothing else changed.

    removeTree p flags w = (ok, w.prune Lp c)        (w.Removable p Lp c slash n)

A tree *can be taken out* (`Node.Clearable`) when each of its directories belongs to the user or
the system, lets the user list it and change its entries, and lists each name once, each name
being one a directory can list, and each path below fitting in `pathMax`. The path itself must
lead to the entry: its directory part resolves to `Lp`, also once the entry has been emptied
(nothing on the way lies inside it), and ends in `/` only for a directory.

The proof follows the removal: one level by induction on the levels left, and the entries of a
directory by induction on its listing, each entry pruned from the world in turn while the
emptied directory stays the same (`clearAt_prune_head`).
-/

namespace DirTree

namespace Node

mutual
/-- A tree that a recursive removal from the path `p` can take out: every directory in it
belongs to the user or the system, lets the user list it and change its entries, and lists each
name once; each name is one a directory can list, fits in `nameMax` and keeps the path below `p`
within `pathMax`. -/
def Clearable (p : Path) : Node → Prop
  | .dir m o es =>
    (o = .user ∨ o = .system) ∧ permits m o readBit = true ∧
      permits m o World.changeBits = true ∧ (es.map (·.1)).Nodup ∧ ClearableOf p es
  | _ => True

def ClearableOf (p : Path) : List (Bytes × Node) → Prop
  | [] => True
  | (x, c) :: es =>
    (EntryName x ∧ isDotEntry x = false ∧ x.length ≤ nameMax ∧ (p.append x).len < pathMax ∧
      c.Clearable (p.append x)) ∧ ClearableOf p es
end

mutual
theorem Clearable.distinct : ∀ {p : Path} (n : Node), n.Clearable p → n.Distinct
  | _, .dir _ _ es, h => ⟨h.2.2.2.1, ClearableOf.distinct es h.2.2.2.2⟩
  | _, .file _, _ | _, .link _, _ | _, .magic _, _ | _, .fifo, _ | _, .socket, _
  | _, .device _, _ => trivial

theorem ClearableOf.distinct : ∀ {p : Path} (es : List (Bytes × Node)), ClearableOf p es →
    DistinctOf es
  | _, [], _ => trivial
  | _, (_, c) :: es, h => ⟨Clearable.distinct c h.1.2.2.2.2, ClearableOf.distinct es h.2⟩
end

/-! ### Sizes: a removal has enough levels -/

theorem size_pos (n : Node) : 0 < n.size := by
  cases n <;> simp only [size] <;> omega

theorem mem_of_lookup {es : List (Bytes × Node)} {x : Bytes} {c : Node}
    (h : es.lookup x = some c) : (x, c) ∈ es := by
  obtain ⟨l₁, l₂, rfl, -⟩ := List.lookup_eq_some_iff.mp h
  simp

theorem size_le_of_mem {es : List (Bytes × Node)} {x : Bytes} {c : Node} (h : (x, c) ∈ es) :
    c.size ≤ sizeOfEntries es := by
  induction es with
  | nil => cases h
  | cons e es ih =>
    obtain ⟨y, cy⟩ := e
    simp only [sizeOfEntries]
    rcases List.mem_cons.mp h with he | he
    · obtain ⟨rfl, rfl⟩ := Prod.mk.inj he
      omega
    · have := ih he
      omega

theorem size_lt_of_mem {m : Nat} {o : Owner} {es : List (Bytes × Node)} {x : Bytes} {c : Node}
    (h : (x, c) ∈ es) : c.size < (Node.dir m o es).size := by
  have := size_le_of_mem h
  simp only [size]
  omega

theorem size_get?_le {n c : Node} {l : Loc} (h : n.get? l = some c) : c.size ≤ n.size := by
  induction l generalizing n with
  | nil =>
    simp only [get?_nil, Option.some.injEq] at h
    rw [h]
  | cons x l ih =>
    rw [get?_cons] at h
    cases hx : n.child? x with
    | none => simp [hx] at h
    | some cx =>
      rw [hx, Option.bind_some] at h
      obtain ⟨m, o, es, rfl⟩ := isDir_iff.mp (isDir_of_child? hx)
      have hmem : (x, cx) ∈ es := mem_of_lookup hx
      have := size_lt_of_mem (m := m) (o := o) hmem
      have := ih h
      omega

theorem entries_nil_of_size {m : Nat} {o : Owner} {es : List (Bytes × Node)}
    (h : (Node.dir m o es).size ≤ 1) : es = [] := by
  cases es with
  | nil => rfl
  | cons e es =>
    have := size_lt_of_mem (m := m) (o := o) (List.mem_cons_self (a := e) (l := es))
    have := size_pos e.2
    omega

end Node

/-! ## What a removal may take out -/

namespace World

/-- The entry `n` named `c` in the directory at `Lp` can be removed through the path `p`: the
path leads to it (also once it has been emptied, so that nothing on the way lies inside it),
ends in `/` only if it is a directory, its directory lets entries go, its name fits, and it can be
taken out. -/
structure Removable (w : World) (p : Path) (Lp : Loc) (c : Bytes) (slash : Bool) (n : Node) :
    Prop where
  node : w.root.get? (Lp ++ [c]) = some n
  name : c.length ≤ nameMax
  route : (w.clearAt (Lp ++ [c])).resolveParent p.bytes = .ok (.live Lp, .name c slash)
  slash : slash = true → n.isDir = true
  parent : w.mayRemove (.live Lp) = .ok ()
  clearable : n.Clearable p

namespace Removable

variable {w : World} {p : Path} {Lp : Loc} {c : Bytes} {slash : Bool} {n : Node}

theorem lookup (h : w.Removable p Lp c slash n) : w.lookup (.live Lp) c = .ok (Lp ++ [c], n) :=
  lookup_of_get? h.node h.name

theorem cleared_extends (h : w.Removable p Lp c slash n) : (w.clearAt (Lp ++ [c])).Extends w :=
  clearAt_extends h.node (h.clearable.distinct n)

/-- The path leads to the entry in the world itself. -/
theorem route_here (hw : w.Sound) (h : w.Removable p Lp c slash n) :
    w.resolveParent p.bytes = .ok (.live Lp, .name c slash) :=
  h.cleared_extends.resolveParent (clearAt_sound hw _) h.route

theorem lstat (hw : w.Sound) (h : w.Removable p Lp c slash n) : w.lstat p.bytes = .ok n :=
  lstat_of_route hw (h.route_here hw) h.lookup h.slash

end Removable

end World

/-! ## One level of a removal -/

namespace Handle

variable {w w' : World} {h h1 : Handle} {flags : Flags}

/-- A handle that knows nothing yet, or knows what is there, classifies what `lstat` finds. -/
theorem classify_of_lstat {n : Node} (hl : w.lstat h.path.bytes = .ok n)
    (hc : h.cached = none ∨ h.cached = some (Kind.ofNode n)) :
    h.classify w = (.ok (Kind.ofNode n), { h with cached := some (Kind.ofNode n) }) := by
  rcases hc with hc | hc
  · simp [classify, hc, look_of_lstat hl]
  · obtain ⟨path, cached⟩ := h
    simp only at hc
    subst hc
    rfl

theorem emptyWith_none (dir : Handle) (flags : Flags) (w : World) :
    emptyWith none dir flags w = ⟨.ok (), (), w⟩ := rfl

theorem emptyWith_some (below : Handle → World → Done Unit) (dir : Handle)
    (hrec : flags.recursive = true) (w : World) :
    emptyWith (some below) dir flags w =
      walk dir (fun child _ _ w =>
        ⟨⟨(below child w).result, (), (below child w).world⟩, (below child w).handle⟩) () w := by
  simp [emptyWith, hrec]

theorem removeStep_of_dir {descend : Option (Handle → World → Done Unit)}
    (hcl : h.classify w = (.ok .directory, h1))
    (he : (emptyWith descend h1 flags w).result = .ok ())
    (hr : (emptyWith descend h1 flags w).world.rmdir h.path.bytes = .ok w') :
    removeStep descend h flags w = ⟨.ok (), h1.invalidate, w'⟩ := by
  simp [removeStep, hcl, he, hr]

theorem removeStep_of_other {descend : Option (Handle → World → Done Unit)} {k : Kind}
    (hcl : h.classify w = (.ok k, h1)) (hk : k ≠ .missing) (hkd : k ≠ .directory)
    (hu : w.unlink h.path.bytes = .ok w') :
    removeStep descend h flags w = ⟨.ok (), h1.invalidate, w'⟩ := by
  cases k with
  | missing => exact absurd rfl hk
  | directory => exact absurd rfl hkd
  | _ => simp [removeStep, hcl, hu]

theorem removeStep_of_missing {descend : Option (Handle → World → Done Unit)}
    (hcl : h.classify w = (.ok .missing, h1)) :
    removeStep descend h flags w =
      if flags.permissive then ⟨.ok (), h1, w⟩ else ⟨.error (.notFound "remove" h.path), h1, w⟩ := by
  simp [removeStep, hcl]

end Handle

/-! ## A whole removal -/

namespace Handle

/-- A removal with `fuel` levels takes out, as `prune` describes, each entry it is asked to
remove through a path that leads to it, when the levels suffice for the entry's size. -/
def PrunesWithin (fuel : Nat) (flags : Flags) : Prop :=
  ∀ (u : World) (h : Handle) (Lp : Loc) (c : Bytes) (slash : Bool) (n : Node), u.Sound →
    u.Removable h.path Lp c slash n → n.size ≤ fuel + 1 →
    (n.isDir = true → flags.recursive = true) →
    (h.cached = none ∨ h.cached = some (Kind.ofNode n)) →
    (h.removeWith fuel flags u).result = .ok () ∧ (h.removeWith fuel flags u).world = u.prune Lp c

/-- **Emptying a directory, entry by entry.** When the level below removes each entry as
`prune` does, walking the entries of the directory at `Lp ++ [c]` from any point of its listing
prunes the rest, and the world ends cleared. Each step prunes the first entry left, which leaves
the cleared world the same (`clearAt_prune_head`); the entry's own path leads to it because the
directory's path still does once the entry is emptied. -/
theorem visitAll_prunes {fuel : Nat} {flags : Flags} (hbelow : PrunesWithin fuel flags)
    (hrec : flags.recursive = true) {p : Path} {Lp : Loc} {c : Bytes} {slash : Bool} {m : Nat}
    {o : Owner} (ho : o = .user ∨ o = .system) (hchange : permits m o World.changeBits = true)
    (hname : c.length ≤ nameMax) :
    ∀ (rest : List (Bytes × Node)) (u : World) (slot : ChildSlot), u.Sound → slot.Based p →
      u.root.get? (Lp ++ [c]) = some (.dir m o rest) → (rest.map (·.1)).Nodup →
      Node.ClearableOf p rest → (∀ e ∈ rest, e.2.size ≤ fuel + 1) →
      (u.clearAt (Lp ++ [c])).resolveParent p.bytes = .ok (.live Lp, .name c slash) →
      visitAll p (fun child _ _ w =>
          ⟨⟨(child.removeWith fuel flags w).result, (), (child.removeWith fuel flags w).world⟩,
            (child.removeWith fuel flags w).handle⟩)
        slot ((rest.map (·.1)).map .ok) () u = ⟨.ok (), (), u.clearAt (Lp ++ [c])⟩
  | [], u, _, _, _, hD, _, _, _, _ => by
    rw [World.clearAt_eq hD]
    rfl
  | (x, cx) :: rest, u, slot, hu, hs, hD, hnd, hcl, hsize, hroute => by
    obtain ⟨⟨hx, hdot, hxlen, hplen, hcx⟩, hcl'⟩ := hcl
    have hnd' := (List.nodup_cons.mp hnd).2
    have hget : u.root.get? (Lp ++ [c] ++ [x]) = some cx := by
      rw [Node.get?_snoc hD, Node.child?_dir, List.lookup_cons_self]
    -- the world with the directory cleared is smaller than the one with only `x` cleared
    have hEx : (u.clearAt (Lp ++ [c])).Extends (u.clearAt (Lp ++ [c] ++ [x])) := by
      rw [← World.clearAt_prune_head hD hnd]
      exact (World.clearAt_extends (World.get?_prune_head hD hnd)
        ⟨hnd', Node.ClearableOf.distinct rest hcl'⟩).trans
        (World.prune_extends_cleared hget (hcx.distinct cx))
    obtain ⟨es', hL'⟩ : ∃ es', (u.clearAt (Lp ++ [c] ++ [x])).root.get? (Lp ++ [c]) =
        some (.dir m o es') := by
      obtain ⟨y, hy, hsh⟩ := hEx.root _ _ (World.clearAt_cleared hD hnd).1
      obtain ⟨es', rfl⟩ := Node.Shape.of_dir hsh
      exact ⟨es', hy⟩
    -- the entry's path leads to it
    have hrem : u.Removable (p.append x) (Lp ++ [c]) x false cx := by
      refine ⟨hget, hxlen, ?_, (fun h => nomatch h), World.mayRemove_of_dir hD ho hchange, hcx⟩
      exact World.resolveParent_append_name (World.clearAt_sound hu _)
        (hEx.resolveParent (World.clearAt_sound hu _) hroute) (World.lookup_of_get? hL' hname)
        (World.permits_search_of_change hchange) hx hdot hplen
    obtain ⟨hres, hworld⟩ := hbelow u ⟨p.append x, some (Kind.ofNode cx)⟩ (Lp ++ [c]) x false cx
      hu hrem (hsize _ List.mem_cons_self) (fun _ => hrec) (.inr rfl)
    -- the walk goes on from the entry's handle as the removal left it, on the entry's path
    have hrest := visitAll_prunes hbelow hrec ho hchange hname rest (u.prune (Lp ++ [c]) x)
      { slot with file := (Handle.removeWith fuel ⟨p.append x, some (Kind.ofNode cx)⟩ flags u).handle }
      (World.prune_sound hu ⟨m, o, _, hD⟩ x)
      ⟨hs.1, by rw [removeWith_path]; exact Path.prefix_append_name p hx⟩
      (World.get?_prune_head hD hnd) hnd' hcl' (fun e he => hsize e (List.mem_cons_of_mem _ he))
      (by rw [World.clearAt_prune_head hD hnd]; exact hroute)
    rw [World.clearAt_prune_head hD hnd] at hrest
    have hdot' : isDotEntry x = false := hdot
    simp only [List.map_cons]
    rw [visitAll, if_neg (by simp [hdot']), ChildSlot.enter_eq hs x u, look_of_lstat (hrem.lstat hu)]
    simp only [hres, hworld]
    exact hrest

/-- **One level.** What is at the path is classified as what `lstat` finds. Anything but a
directory is unlinked, which prunes it; a directory is emptied (here assumed to leave the
cleared world) and then removed with `rmdir`, which prunes it too (`prune_of_cleared`). -/
theorem removeStep_prunes {u : World} {h : Handle} {Lp : Loc} {c : Bytes} {slash : Bool}
    {n : Node} {descend : Option (Handle → World → Done Unit)} (hu : u.Sound)
    (hrem : u.Removable h.path Lp c slash n)
    (hcached : h.cached = none ∨ h.cached = some (Kind.ofNode n))
    (hempty : n.isDir = true → emptyWith descend { h with cached := some (Kind.ofNode n) } flags u =
      ⟨.ok (), (), u.clearAt (Lp ++ [c])⟩) :
    (removeStep descend h flags u).result = .ok () ∧
      (removeStep descend h flags u).world = u.prune Lp c := by
  have hcl := classify_of_lstat (hrem.lstat hu) hcached
  cases hdir : n.isDir with
  | false =>
    -- not a directory: unlinked, and the path cannot end in `/`
    have hslash : slash = false := by
      cases slash with
      | false => rfl
      | true => simp [hrem.slash rfl] at hdir
    subst hslash
    have hunlink := World.unlink_of_route (hrem.route_here hu) hrem.lookup hdir hrem.parent
    have hk : Kind.ofNode n ≠ .missing ∧ Kind.ofNode n ≠ .directory := by
      cases n <;> simp_all [Kind.ofNode, Node.isDir]
    rw [removeStep_of_other hcl hk.1 hk.2 hunlink, World.prune_of_not_dir hrem.node hdir]
    exact ⟨rfl, rfl⟩
  | true =>
    obtain ⟨m, o, es, rfl⟩ := Node.isDir_iff.mp hdir
    obtain ⟨ho, -, hchange, hnd, -⟩ := hrem.clearable
    obtain ⟨hL, -⟩ := World.clearAt_cleared hrem.node hnd
    -- the cleared world lets the entry go as the world did
    have hparent : (u.clearAt (Lp ++ [c])).mayRemove (.live Lp) = .ok () := by
      rw [Node.get?_append] at hL
      cases hLp : (u.clearAt (Lp ++ [c])).root.get? Lp with
      | none => simp [hLp] at hL
      | some d =>
        obtain ⟨d', hd', hsh⟩ := hrem.cleared_extends.root Lp d hLp
        have hat : (u.clearAt (Lp ++ [c])).nodeAt (.live Lp) = some d := hLp
        have hat' : u.nodeAt (.live Lp) = some d' := hd'
        rw [← World.mayRemove_of_shape hat hat' hsh]
        exact hrem.parent
    have hrmdir := World.rmdir_of_route hrem.route (World.lookup_of_get? hL hrem.name) ho hparent
    rw [World.prune_of_cleared hrem.node hnd] at hrmdir
    have he := hempty rfl
    rw [removeStep_of_dir hcl (by rw [he]) (by rw [he]; exact hrmdir)]
    exact ⟨rfl, rfl⟩

/-- **Every removal with enough levels prunes.** By induction on the levels: with none left, a
directory must be empty, and emptying does nothing; with one more, emptying walks the listing
and removes each entry with the levels below (`visitAll_prunes`). -/
theorem removeWith_prunes (flags : Flags) : ∀ fuel, PrunesWithin fuel flags := by
  intro fuel
  induction fuel with
  | zero =>
    intro u h Lp c slash n hu hrem hsize _ hcached
    refine removeStep_prunes hu hrem hcached fun hdir => ?_
    obtain ⟨m, o, es, rfl⟩ := Node.isDir_iff.mp hdir
    have hes : es = [] := Node.entries_nil_of_size hsize
    subst hes
    rw [emptyWith_none, World.clearAt_eq hrem.node]
    rfl
  | succ fuel ih =>
    intro u h Lp c slash n hu hrem hsize hrec hcached
    refine removeStep_prunes hu hrem hcached fun hdir => ?_
    obtain ⟨m, o, es, rfl⟩ := Node.isDir_iff.mp hdir
    obtain ⟨ho, hread, hchange, hnd, hcl⟩ := hrem.clearable
    have hopen := World.opendir_of_route hu (hrem.route_here hu) hrem.lookup hread
    rw [emptyWith_some _ _ (hrec rfl), walk]
    simp only [hopen]
    exact visitAll_prunes ih (hrec rfl) ho hchange hrem.name es u _ hu (ChildSlot.new_based _)
      hrem.node hnd hcl (fun e he => by
        have := Node.size_lt_of_mem (m := m) (o := o) he
        omega) hrem.route

/-- **Removing a tree prunes it.** A removal through a path that leads to an entry that can be
taken out, recursive when the entry is a directory, succeeds and leaves the world without the
entry and everything below it; a working directory inside it is left removed. Nothing else
changes. -/
theorem removeTree_prunes {w : World} (hw : w.Sound) {p : Path} {flags : Flags} {Lp : Loc}
    {c : Bytes} {slash : Bool} {n : Node} (hrem : w.Removable p Lp c slash n)
    (hrec : n.isDir = true → flags.recursive = true) :
    removeTree p flags w = (.ok (), w.prune Lp c) := by
  have hsize : n.size ≤ removalFuel w + 1 := by
    have := Node.size_get?_le hrem.node
    simp only [removalFuel]
    omega
  obtain ⟨hres, hworld⟩ :=
    removeWith_prunes flags (removalFuel w) w (new p) Lp c slash n hw hrem hsize hrec (.inl rfl)
  simp only [removeTree, remove, hres, hworld]

/-- **Removing nothing.** When `lstat` says that nothing is at the path, a removal changes
nothing: it succeeds when permissive and reports the path as not found otherwise. -/
theorem removeTree_missing {w : World} {p : Path} {flags : Flags} {e : Errno}
    (he : w.lstat p.bytes = .error e) (hm : e.meansMissing = true) :
    removeTree p flags w =
      (if flags.permissive then .ok () else .error (.notFound "remove" p), w) := by
  have hcl : (new p).classify w = (.ok .missing, ⟨p, some .missing⟩) := by
    simp [classify, new, look, he, hm]
  unfold removeTree remove
  cases removalFuel w <;>
    · rw [removeWith, removeStep_of_missing hcl]
      cases flags.permissive <;> rfl

/-- **What a removal removes.** In a sound world, a removal of a path where `lstat` finds
nothing changes nothing, and succeeds only when permissive; a removal of an entry that can be
taken out, through a path that leads to it, and recursive when the entry is a directory,
succeeds and leaves exactly the world without that entry and everything below it. -/
theorem removeTree_removes_exactly {w : World} (hw : w.Sound) (p : Path) (flags : Flags) :
    (∀ e, w.lstat p.bytes = .error e → e.meansMissing = true →
      removeTree p flags w =
        (if flags.permissive then .ok () else .error (.notFound "remove" p), w)) ∧
    (∀ Lp c slash n, w.Removable p Lp c slash n → (n.isDir = true → flags.recursive = true) →
      removeTree p flags w = (.ok (), w.prune Lp c)) :=
  ⟨fun _ he hm => removeTree_missing he hm, fun _ _ _ _ hrem hrec => removeTree_prunes hw hrem hrec⟩

/-- Removing the directory `d` that holds the file `f`, from `/`, prunes `d`. -/
theorem removeTree_dir_with_file :
    (⟨.dir 0o755 .system [([100], .dir 0o755 .user [([102], .file [])])], .live []⟩ : World).Sound ∧
    (⟨.dir 0o755 .system [([100], .dir 0o755 .user [([102], .file [])])], .live []⟩ : World).Removable
      ⟨[100]⟩ [] [100] false (.dir 0o755 .user [([102], .file [])]) ∧
    removeTree ⟨[100]⟩ ⟨false, true⟩
        ⟨.dir 0o755 .system [([100], .dir 0o755 .user [([102], .file [])])], .live []⟩ =
      (.ok (), World.prune ⟨.dir 0o755 .system [([100], .dir 0o755 .user [([102], .file [])])],
        .live []⟩ [] [100]) :=
  have hw : (⟨.dir 0o755 .system [([100], .dir 0o755 .user [([102], .file [])])], .live []⟩ :
      World).Sound := ⟨⟨_, _, _, rfl⟩, ⟨_, _, _, rfl⟩⟩
  have hrem : (⟨.dir 0o755 .system [([100], .dir 0o755 .user [([102], .file [])])], .live []⟩ :
      World).Removable ⟨[100]⟩ [] [100] false (.dir 0o755 .user [([102], .file [])]) := by
    refine ⟨rfl, by decide, World.resolveParent_single rfl rfl rfl rfl rfl, (fun h => nomatch h),
      World.mayRemove_of_dir rfl (.inr rfl) rfl, ?_⟩
    exact ⟨.inl rfl, by decide, by decide, by decide, ⟨by decide, by decide, by decide, by decide,
      trivial⟩, trivial⟩
  ⟨hw, hrem, (removeTree_removes_exactly hw _ _).2 _ _ _ _ hrem fun _ => rfl⟩

/-- **An empty directory that denies reading is not removed.** The user's empty directory
`locked` of mode `0`, which `lstat` finds, cannot be listed: a recursive removal fails at
`opendir` and changes nothing. -/
theorem removeTree_unreadable_dir :
    World.lstat ⟨.dir 0o755 .system [([108, 111, 99, 107, 101, 100], .dir 0 .user [])], .live []⟩
        [108, 111, 99, 107, 101, 100] = .ok (.dir 0 .user []) ∧
    removeTree ⟨[108, 111, 99, 107, 101, 100]⟩ ⟨false, true⟩
        ⟨.dir 0o755 .system [([108, 111, 99, 107, 101, 100], .dir 0 .user [])], .live []⟩ =
      (.error (.system "opendir" ⟨[108, 111, 99, 107, 101, 100]⟩ (.ofErrno .accessDenied)),
        ⟨.dir 0o755 .system [([108, 111, 99, 107, 101, 100], .dir 0 .user [])], .live []⟩) := by
  have hw : (⟨.dir 0o755 .system [([108, 111, 99, 107, 101, 100], .dir 0 .user [])], .live []⟩ :
      World).Sound := ⟨⟨_, _, _, rfl⟩, ⟨_, _, _, rfl⟩⟩
  -- `locked` is the entry of `/` of that name, a directory of mode `0`
  have hroute : World.resolveParent
      ⟨.dir 0o755 .system [([108, 111, 99, 107, 101, 100], .dir 0 .user [])], .live []⟩
      [108, 111, 99, 107, 101, 100] = .ok (.live [], .name [108, 111, 99, 107, 101, 100] false) :=
    World.resolveParent_single rfl rfl rfl rfl rfl
  have hlook : World.lookup
      ⟨.dir 0o755 .system [([108, 111, 99, 107, 101, 100], .dir 0 .user [])], .live []⟩ (.live [])
      [108, 111, 99, 107, 101, 100] = .ok ([[108, 111, 99, 107, 101, 100]], .dir 0 .user []) :=
    World.lookup_of_get? rfl (by decide)
  have hl := World.lstat_of_route hw hroute hlook (fun _ => rfl)
  -- the walk that empties it cannot list it
  have hopen : World.opendir
      ⟨.dir 0o755 .system [([108, 111, 99, 107, 101, 100], .dir 0 .user [])], .live []⟩
      [108, 111, 99, 107, 101, 100] = .error .accessDenied :=
    World.opendir_unreadable (World.resolve_of_route hw hroute hlook (.inr (by decide)) rfl) rfl
  have hcl : (new ⟨[108, 111, 99, 107, 101, 100]⟩).classify
      ⟨.dir 0o755 .system [([108, 111, 99, 107, 101, 100], .dir 0 .user [])], .live []⟩ =
      (.ok (Kind.ofNode (.dir 0 .user [])),
        { new ⟨[108, 111, 99, 107, 101, 100]⟩ with cached := some (Kind.ofNode (.dir 0 .user [])) }) :=
    classify_of_lstat hl (.inl rfl)
  refine ⟨hl, ?_⟩
  -- one level of the removal: a directory, whose emptying fails at once
  unfold removeTree remove
  rw [show removalFuel ⟨.dir 0o755 .system [([108, 111, 99, 107, 101, 100], .dir 0 .user [])],
    .live []⟩ = 1 + 1 from rfl, removeWith, removeStep, hcl]
  simp [Kind.ofNode, new, emptyWith_some, walk, hopen]

end Handle

end DirTree
