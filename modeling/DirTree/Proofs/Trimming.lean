import DirTree.Proofs.CacheCoherence
import DirTree.Proofs.RemoveTree

/-!
# What a removal leaves

A removal only takes entries out: `unlink` drops a non-directory and `rmdir` an empty directory,
and each of them is pruning that entry (`unlink_ok`, `rmdir_ok`). What is left of a world is
*trimmed*: it is still sound, it is smaller (every node it has stands where it stood, of the
same shape), and none of its nodes is taller than the node that stood at its location:

    w.unlink p = ok w'                          →  w'.Trimmed w
    w.rmdir p = ok w'                           →  w'.Trimmed w
    w.Sound                                     →  (h.removeWith fuel flags w).world.Trimmed w

The height of a tree is the length of the longest chain of entries below it. A world is *tidy*
when it is sound and every name that its directories list is one a directory can list: not
empty, without `/` and without NUL. What is trimmed from a tidy world is tidy.
-/

namespace DirTree

namespace Node

mutual
/-- The height of a tree: the length of the longest chain of entries below it. A node without
entries has height zero. -/
def height : Node → Nat
  | .dir _ _ es => heightOf es
  | _ => 0

def heightOf : List (Bytes × Node) → Nat
  | [] => 0
  | (_, c) :: es => max (c.height + 1) (heightOf es)
end

/-- Every entry of every directory in the tree has a name a directory can list. -/
def Named (n : Node) : Prop := ∀ l d, n.get? l = some d → ∀ x ∈ d.names, EntryName x

/-- Every node of `n` stands at the same location in `n'`, no taller there. -/
def NoTaller (n n' : Node) : Prop :=
  ∀ l x, n.get? l = some x → ∃ x', n'.get? l = some x' ∧ x.height ≤ x'.height

/-! ## Heights -/

@[simp] theorem height_dir (m : Nat) (o : Owner) (es : List (Bytes × Node)) :
    (Node.dir m o es).height = heightOf es := by
  simp [height]

theorem height_of_not_dir {n : Node} (h : n.isDir = false) : n.height = 0 := by
  cases n <;> simp_all [height, isDir]

theorem heightOf_le_iff {es : List (Bytes × Node)} {k : Nat} :
    heightOf es ≤ k ↔ ∀ e ∈ es, e.2.height + 1 ≤ k := by
  induction es with
  | nil => simp [heightOf]
  | cons e es ih =>
    obtain ⟨x, c⟩ := e
    rw [heightOf, Nat.max_le, ih, List.forall_mem_cons]

theorem height_lt_of_mem {m : Nat} {o : Owner} {es : List (Bytes × Node)} {x : Bytes} {c : Node}
    (h : (x, c) ∈ es) : c.height < (Node.dir m o es).height := by
  have : c.height + 1 ≤ heightOf es := heightOf_le_iff.mp (le_refl _) (x, c) h
  simp only [height_dir]
  omega

theorem height_lt_of_child? {n c : Node} {x : Bytes} (h : n.child? x = some c) :
    c.height < n.height := by
  obtain ⟨m, o, es, rfl⟩ := isDir_iff.mp (isDir_of_child? h)
  exact height_lt_of_mem (mem_of_lookup h)

mutual
theorem height_lt_size : ∀ n : Node, n.height < n.size
  | .dir _ _ es => by
    have := heightOf_le_sizeOfEntries es
    simp only [height_dir, size]
    omega
  | .file _ | .link _ | .magic _ | .fifo | .socket | .device _ => by
    simp [height, size]

theorem heightOf_le_sizeOfEntries : ∀ es : List (Bytes × Node), heightOf es ≤ sizeOfEntries es
  | [] => by simp [heightOf, sizeOfEntries]
  | (_, c) :: es => by
    have := height_lt_size c
    have := heightOf_le_sizeOfEntries es
    simp only [heightOf, sizeOfEntries]
    omega
end

theorem height_modifyAt_erase_le (c : Bytes) :
    ∀ (l : Loc) (n : Node), (n.modifyAt l (erase c)).height ≤ n.height
  | [], .dir m o es => by
    simp only [modifyAt, erase, height_dir]
    exact heightOf_le_iff.mpr fun e he =>
      heightOf_le_iff.mp (le_refl _) e (List.mem_filter.mp he).1
  | [], .file _ | [], .link _ | [], .magic _ | [], .fifo | [], .socket | [], .device _ => le_refl _
  | y :: l, .dir m o es => by
    simp only [modifyAt, height_dir]
    refine heightOf_le_iff.mpr fun e he => ?_
    obtain ⟨e₀, he₀, rfl⟩ := List.mem_map.mp he
    have hle := heightOf_le_iff.mp (le_refl _) e₀ he₀
    by_cases hy : (e₀.1 == y) = true
    · -- an entry on the way to the change is changed below, and gets no taller
      have := height_modifyAt_erase_le c l e₀.2
      simp only [hy, if_true]
      omega
    · simpa [hy] using hle
  | _ :: _, .file _ | _ :: _, .link _ | _ :: _, .magic _ | _ :: _, .fifo | _ :: _, .socket
  | _ :: _, .device _ => le_refl _

namespace NoTaller

theorem refl (n : Node) : n.NoTaller n := fun _ x hx => ⟨x, hx, le_refl _⟩

theorem trans {a b c : Node} (h₁ : a.NoTaller b) (h₂ : b.NoTaller c) : a.NoTaller c := by
  intro l x hx
  obtain ⟨y, hy, hxy⟩ := h₁ l x hx
  obtain ⟨z, hz, hyz⟩ := h₂ l y hy
  exact ⟨z, hz, hxy.trans hyz⟩

/-- **Dropping an entry makes no node taller.** A location on the way to the change holds the
node that was there, changed below it; any other location holds what it held. -/
theorem modifyAt_erase (c : Bytes) (n : Node) (l : Loc) : (n.modifyAt l (erase c)).NoTaller n := by
  intro t
  induction t generalizing n l with
  | nil =>
    intro x hx
    simp only [get?_nil, Option.some.injEq] at hx
    subst hx
    exact ⟨n, rfl, height_modifyAt_erase_le c l n⟩
  | cons z t ih =>
    intro x hx
    cases l with
    | nil =>
      -- the entry `c` itself is gone, and nothing else below the directory moved
      simp only [modifyAt] at hx
      rw [get?_cons, child?_erase] at hx
      by_cases hz : z = c
      · simp [hz] at hx
      · rw [if_neg hz, ← get?_cons] at hx
        exact ⟨x, hx, le_refl _⟩
    | cons y l =>
      rw [get?_cons, child?_modifyAt_cons] at hx
      by_cases hz : z = y
      · subst hz
        rw [if_pos rfl] at hx
        cases hc : n.child? z with
        | none => simp [hc] at hx
        | some cz =>
          rw [hc, Option.map_some, Option.bind_some] at hx
          obtain ⟨x', hx', hle⟩ := ih cz l x hx
          refine ⟨x', ?_, hle⟩
          rw [get?_cons, hc]
          exact hx'
      · rw [if_neg hz, ← get?_cons] at hx
        exact ⟨x, hx, le_refl _⟩

end NoTaller

/-! ## Names -/

theorem exists_child?_of_mem_names {d : Node} {x : Bytes} (h : x ∈ d.names) :
    ∃ c, d.child? x = some c := by
  cases hc : d.child? x with
  | some c => exact ⟨c, rfl⟩
  | none =>
    -- a name that finds nothing is the name of no entry
    obtain ⟨e, he, rfl⟩ := List.mem_map.mp h
    have := List.lookup_eq_none_iff.mp hc e he
    simp at this

theorem mem_names_of_child? {d c : Node} {x : Bytes} (h : d.child? x = some c) : x ∈ d.names :=
  List.mem_map.mpr ⟨_, mem_of_lookup h, rfl⟩

theorem exists_of_get?_snoc {n c : Node} {l : Loc} {x : Bytes} (h : n.get? (l ++ [x]) = some c) :
    ∃ d, n.get? l = some d ∧ d.child? x = some c := by
  cases hd : n.get? l with
  | none => simp [get?_append, hd] at h
  | some d => exact ⟨d, rfl, (get?_snoc hd x).symm.trans h⟩

namespace Named

theorem dir {m : Nat} {o : Owner} {es : List (Bytes × Node)}
    (h : ∀ e ∈ es, EntryName e.1 ∧ e.2.Named) : (Node.dir m o es).Named := by
  intro l d hd x hx
  cases l with
  | nil =>
    simp only [get?_nil, Option.some.injEq] at hd
    subst hd
    obtain ⟨e, he, rfl⟩ := List.mem_map.mp hx
    exact (h e he).1
  | cons y l =>
    rw [get?_cons, child?_dir] at hd
    cases hc : es.lookup y with
    | none => simp [hc] at hd
    | some c =>
      rw [hc, Option.bind_some] at hd
      exact (h (y, c) (mem_of_lookup hc)).2 l d hd x hx

theorem of_not_dir {n : Node} (hn : n.isDir = false) : n.Named := by
  intro l d hd x hx
  cases l with
  | nil =>
    simp only [get?_nil, Option.some.injEq] at hd
    subst hd
    cases n <;> simp_all [isDir, names, entries]
  | cons y l => simp [get?_cons, child?_of_not_dir hn] at hd

/-- **A smaller tree is named** when the larger one is: each name it lists leads to a node,
which the larger tree has at the same location. -/
theorem of_grows {n n' : Node} (hg : n.Grows n') (h : n'.Named) : n.Named := by
  intro l d hd x hx
  obtain ⟨c, hc⟩ := exists_child?_of_mem_names hx
  obtain ⟨c', hc', -⟩ := hg (l ++ [x]) c (by rw [get?_snoc hd]; exact hc)
  obtain ⟨d', hd', hx'⟩ := exists_of_get?_snoc hc'
  exact h l d' hd' x (mem_names_of_child? hx')

end Named

end Node

/-! ## Trimmed worlds -/

namespace World

variable {w w' w'' : World}

/-- A world as a filesystem keeps it: sound, and every name listed in it one a directory can
list. -/
structure Tidy (w : World) : Prop where
  sound : w.Sound
  named : w.root.Named

/-- `w'` is what is left of `w` once entries have been taken out: sound, smaller, and without a
node taller than the node at its location in `w`. -/
structure Trimmed (w' w : World) : Prop where
  sound : w'.Sound
  smaller : w'.Extends w
  noTaller : w'.root.NoTaller w.root

namespace Trimmed

theorem refl (hw : w.Sound) : w.Trimmed w := ⟨hw, .refl w, .refl w.root⟩

theorem trans (h₁ : w''.Trimmed w') (h₂ : w'.Trimmed w) : w''.Trimmed w :=
  ⟨h₁.sound, h₁.smaller.trans h₂.smaller, h₁.noTaller.trans h₂.noTaller⟩

theorem tidy (ht : w'.Trimmed w) (hw : w.Tidy) : w'.Tidy :=
  ⟨ht.sound, hw.named.of_grows ht.smaller.root⟩

end Trimmed

theorem dirSpot_of_get?_snoc {Lp : Loc} {c : Bytes} {n : Node}
    (hn : w.root.get? (Lp ++ [c]) = some n) : w.DirSpot (.live Lp) := by
  obtain ⟨d, hd, hc⟩ := Node.exists_of_get?_snoc hn
  obtain ⟨m, o, es, rfl⟩ := Node.isDir_iff.mp (Node.isDir_of_child? hc)
  exact ⟨m, o, es, hd⟩

/-- **Pruning trims**, when the pruned entry lists each name once throughout. -/
theorem prune_trimmed (hw : w.Sound) {Lp : Loc} {c : Bytes} {n : Node}
    (hn : w.root.get? (Lp ++ [c]) = some n) (hd : n.Distinct) : (w.prune Lp c).Trimmed w where
  sound := prune_sound hw (dirSpot_of_get?_snoc hn) c
  smaller := prune_extends fun n' hn' => by
    rw [hn] at hn'
    cases hn'
    exact hd
  noTaller := Node.NoTaller.modifyAt_erase c w.root Lp

/-- An empty directory is pruned by dropping it, and a working directory that is or was in it
is removed with it. -/
theorem prune_of_empty {Lp : Loc} {c : Bytes} {m : Nat} {o : Owner}
    (hn : w.root.get? (Lp ++ [c]) = some (.dir m o [])) :
    w.prune Lp c = { w.drop Lp c with cwd := w.cwd.bury (Lp ++ [c]) m o } := by
  have h := prune_of_cleared hn List.nodup_nil
  rw [clearAt_eq hn] at h
  exact h.symm

/-- **What `unlink` did.** An `unlink` that succeeds pruned a non-directory of the tree. -/
theorem unlink_ok {path : Bytes} (h : w.unlink path = .ok w') :
    ∃ Lp c n, w.root.get? (Lp ++ [c]) = some n ∧ n.isDir = false ∧ w' = w.prune Lp c := by
  unfold unlink at h
  obtain ⟨⟨dir, last⟩, -, h⟩ := bind_eq_ok.mp h
  cases last with
  | name c slash =>
    obtain ⟨⟨loc, here⟩, hs, h⟩ := bind_eq_ok.mp h
    obtain ⟨dloc, d, rfl, hd, rfl, rfl, -⟩ := slot_ok hs
    cases hc : d.child? c with
    | none => simp [hc, throw, throwThe, MonadExceptOf.throw] at h
    | some node =>
      have hget : w.root.get? (dloc ++ [c]) = some node := by rw [Node.get?_snoc hd, hc]
      -- only a non-directory named without a final `/`, in a directory that lets it go, is dropped
      cases hm : w.mayRemove (.live dloc) <;> cases slash <;> cases hdir : node.isDir <;>
        simp [hc, hm, hdir, locOf, throw, throwThe, MonadExceptOf.throw, bind, Except.bind, pure,
          Except.pure] at h
      exact ⟨dloc, c, node, hget, hdir, by rw [← h, prune_of_not_dir hget hdir]⟩
  | _ => simp [throw, throwThe, MonadExceptOf.throw] at h

/-- **What `rmdir` did.** An `rmdir` that succeeds pruned an empty directory of the tree. -/
theorem rmdir_ok {path : Bytes} (h : w.rmdir path = .ok w') :
    ∃ Lp c m o, w.root.get? (Lp ++ [c]) = some (.dir m o []) ∧ w' = w.prune Lp c := by
  unfold rmdir at h
  obtain ⟨⟨dir, last⟩, -, h⟩ := bind_eq_ok.mp h
  cases last with
  | name c slash =>
    obtain ⟨⟨loc, here⟩, hs, h⟩ := bind_eq_ok.mp h
    obtain ⟨dloc, d, rfl, hd, rfl, rfl, -⟩ := slot_ok hs
    cases hc : d.child? c with
    | none => simp [hc, throw, throwThe, MonadExceptOf.throw] at h
    | some node =>
      cases hm : w.mayRemove (.live dloc) with
      | error e => simp [hc, hm, bind, Except.bind] at h
      | ok u =>
        cases node with
        | dir m o es =>
          have hget : w.root.get? (dloc ++ [c]) = some (.dir m o es) := by
            rw [Node.get?_snoc hd, hc]
          -- only an empty directory that is not the kernel's is dropped
          cases es <;> cases ho : (o == .kernel || o == .registry) <;>
            simp [hc, hm, ho, locOf, throw, throwThe, MonadExceptOf.throw, bind, Except.bind, pure,
              Except.pure] at h
          exact ⟨dloc, c, m, o, hget, by rw [prune_of_empty hget, ← h]⟩
        | _ => simp [hc, hm, throw, throwThe, MonadExceptOf.throw, bind, Except.bind] at h
  | _ => simp [throw, throwThe, MonadExceptOf.throw] at h

theorem unlink_trimmed (hw : w.Sound) {path : Bytes} (h : w.unlink path = .ok w') : w'.Trimmed w := by
  obtain ⟨Lp, c, n, hn, hnd, rfl⟩ := unlink_ok h
  refine prune_trimmed hw hn ?_
  cases n <;> simp_all [Node.isDir, Node.Distinct]

theorem rmdir_trimmed (hw : w.Sound) {path : Bytes} (h : w.rmdir path = .ok w') : w'.Trimmed w := by
  obtain ⟨Lp, c, m, o, hn, rfl⟩ := rmdir_ok h
  exact prune_trimmed hw hn ⟨List.nodup_nil, trivial⟩

end World

/-! ## Removals trim -/

open World

/-- **A walk keeps what each visit keeps.** Whatever holds of the world before a visit and
holds after it holds after the walk of any listing. -/
theorem visitAll_keeps {σ : Type} {dir : Path} {visit : Visitor σ} (P : World → Prop)
    (hvisit : ∀ c x s u, P u → P (visit c x s u).world) :
    ∀ (items : Listing) (slot : ChildSlot) (s : σ) (u : World), P u →
      P (visitAll dir visit slot items s u).world := by
  intro items
  induction items with
  | nil => exact fun _ _ _ hu => hu
  | cons item items ih =>
    intro slot s u hu
    cases item with
    | error e => exact hu
    | ok name =>
      simp only [visitAll]
      split
      · exact ih slot s u hu
      · split
        · exact hu
        · split
          · exact hvisit _ _ _ _ hu
          · exact ih _ _ _ (hvisit _ _ _ _ hu)

namespace Handle

variable {flags : Flags}

/-- **One level of a removal trims**, when the level below does. -/
theorem removeStep_trimmed {descend : Option (Handle → World → Done Unit)}
    (hbelow : ∀ below, descend = some below → ∀ c u, u.Sound → (below c u).world.Trimmed u)
    (h : Handle) {u : World} (hu : u.Sound) : (removeStep descend h flags u).world.Trimmed u := by
  -- emptying a directory walks it with the level below, each visit trimming what it found
  have hempty : ∀ h1, (emptyWith descend h1 flags u).world.Trimmed u := by
    intro h1
    cases descend with
    | none => exact .refl hu
    | some below =>
      cases hr : flags.recursive
      · rw [emptyWith_of_not_recursive _ _ hr]
        exact .refl hu
      · rw [emptyWith_some below h1 hr, walk]
        split
        · exact .refl hu
        · refine visitAll_keeps (fun u' => u'.Trimmed u) (fun c x s u' hu' => ?_) _ _ _ u
            (.refl hu)
          exact (hbelow below rfl c u' hu'.sound).trans hu'
  unfold removeStep
  rcases hcl : h.classify u with ⟨r, h1⟩
  dsimp only
  split
  · exact .refl hu
  · split <;> exact .refl hu
  · split
    · exact hempty h1
    · split
      · rename_i hrm
        exact (rmdir_trimmed (hempty h1).sound hrm).trans (hempty h1)
      · exact hempty h1
  · split
    · rename_i hun
      exact unlink_trimmed hu hun
    · exact .refl hu

/-- **A removal trims the world**, with any levels. -/
theorem removeWith_trimmed (flags : Flags) :
    ∀ (fuel : Nat) (h : Handle) (u : World), u.Sound → (h.removeWith fuel flags u).world.Trimmed u
  | 0, h, u, hu => removeStep_trimmed (fun _ hb => by cases hb) h hu
  | fuel + 1, h, u, hu => removeStep_trimmed (fun below hb c u' hu' => by
      cases hb
      exact removeWith_trimmed flags fuel c u' hu') h hu

end Handle

end DirTree
