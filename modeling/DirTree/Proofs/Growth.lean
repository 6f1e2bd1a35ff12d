import DirTree.Proofs.Resolution

/-!
# Worlds that only gained entries

A world *extends* another when its tree holds every node of the other at the same location and
of the same shape, and its working directory stands for the other's (`World.Extends`). The
working directory may have been removed in the smaller world while it is still there in the
larger: `Covers` relates such spots, a removed directory to the directory it was, with the same
bits and owner. A walk that succeeds in the smaller world succeeds in the larger one, and ends
where it did (`Extends.walk_ok`, `Extends.walk_live`):

    w.Extends w' → w.walk pf fo md n s cs = ok r → w'.walk pf fo md n s' cs = ok r'    (s' covers s)

A new entry under a name its directory lacks extends the world (`add_extends`).
-/

namespace DirTree

namespace World

variable {w w' : World}

/-- In the world `w'`, the spot `s'` stands for the spot `s` of a world that grew into `w'`: it
is `s` itself, or `s` holds a removed directory that `w'` still has at `s'` (same bits, same
owner, its holder standing for the removed one's), or both hold removed directories whose
holders stand for each other. -/
inductive Covers (w' : World) : Spot → Spot → Prop
  | refl (s : Spot) : Covers w' s s
  | live {m : Nat} {o : Owner} {p : Spot} {l : Loc} {es : List (Bytes × Node)} :
      w'.root.get? l = some (.dir m o es) → Covers w' p (.live l.dropLast) →
      Covers w' (.gone m o p) (.live l)
  | gone {m : Nat} {o : Owner} {p p' : Spot} :
      Covers w' p p' → Covers w' (.gone m o p) (.gone m o p')

/-- `w'` holds every node of `w`, at the same location and of the same shape, and its working
directory stands for that of `w`. -/
structure Extends (w w' : World) : Prop where
  root : w.root.Grows w'.root
  cwd : w'.Covers w.cwd w'.cwd

/-- Where a walk of `w'` ends stands for where the same walk of `w` ends. -/
def CoversReach (w' : World) (r r' : Reach) : Prop :=
  w'.Covers r.spot r'.spot ∧ r'.rest = r.rest ∧ r'.links = r.links

namespace Covers

theorem live_eq {l : Loc} {s' : Spot} (h : w'.Covers (.live l) s') : s' = .live l := by
  cases h
  rfl

theorem parent {s s' : Spot} (h : w'.Covers s s') : w'.Covers s.parent s'.parent := by
  cases h with
  | refl => exact .refl _
  | live _ hp => exact hp
  | gone hp => exact hp

theorem mono {w'' : World} {s s' : Spot} (h : w'.Covers s s') (hg : w'.root.Grows w''.root) :
    w''.Covers s s' := by
  induction h with
  | refl s => exact .refl s
  | live hl _ ih =>
    obtain ⟨n', hn', hs⟩ := hg _ _ hl
    obtain ⟨es', rfl⟩ := Node.Shape.of_dir hs
    exact .live hn' ih
  | gone _ ih => exact .gone ih

theorem trans {s₁ s₂ s₃ : Spot} (h₁ : w'.Covers s₁ s₂) (h₂ : w'.Covers s₂ s₃) :
    w'.Covers s₁ s₃ := by
  induction h₁ generalizing s₃ with
  | refl => exact h₂
  | live hl hp _ =>
    obtain rfl := h₂.live_eq
    exact .live hl hp
  | gone hp ih =>
    cases h₂ with
    | refl => exact .gone hp
    | live hl hp' => exact .live hl (ih hp')
    | gone hp' => exact .gone (ih hp')

end Covers

namespace Extends

theorem nodeAt (he : w.Extends w') {s s' : Spot} (hc : w'.Covers s s') {n : Node}
    (h : w.nodeAt s = some n) : ∃ n', w'.nodeAt s' = some n' ∧ n.Shape n' := by
  cases hc with
  | refl =>
    cases s with
    | live loc => exact he.root loc n h
    | gone m o p => exact ⟨n, h, .refl n⟩
    | held hd => cases hd <;> exact ⟨n, h, .refl n⟩
  | live hl _ =>
    cases h
    exact ⟨_, hl, ⟨rfl, rfl⟩⟩
  | gone _ => exact ⟨n, h, .refl n⟩

theorem dirSpot (he : w.Extends w') {s s' : Spot} (hc : w'.Covers s s') (h : w.DirSpot s) :
    w'.DirSpot s' := by
  induction hc with
  | refl s =>
    induction s with
    | live loc =>
      obtain ⟨m, o, es, hd⟩ := h
      obtain ⟨n', hn', hs⟩ := he.root loc _ hd
      obtain ⟨es', rfl⟩ := Node.Shape.of_dir hs
      exact ⟨m, o, es', hn'⟩
    | gone m o p ih => exact ih h
    | held hd => exact h.elim
  | live hl _ _ => exact ⟨_, _, _, hl⟩
  | gone _ ih => exact ih h

theorem refl (w : World) : w.Extends w := ⟨.refl _, .refl _⟩

theorem trans {w'' : World} (h₁ : w.Extends w') (h₂ : w'.Extends w'') : w.Extends w'' :=
  ⟨h₁.root.trans h₂.root, (h₁.cwd.mono h₂.root).trans h₂.cwd⟩

theorem sound (he : w.Extends w') (hw : w.Sound) : w'.Sound :=
  ⟨he.dirSpot (.refl _) hw.root, he.dirSpot he.cwd hw.cwd⟩

theorem allows (he : w.Extends w') {s s' : Spot} (hc : w'.Covers s s') (h : w.DirSpot s)
    (want : Nat) : w'.allows s' want = w.allows s want := by
  obtain ⟨m, o, es, hn⟩ := h.nodeAt
  obtain ⟨n', hn', hs⟩ := he.nodeAt hc hn
  obtain ⟨es', rfl⟩ := Node.Shape.of_dir hs
  simp [World.allows, hn, hn']

theorem lookup (he : w.Extends w') {cur : Spot} {c : Bytes} {loc : Loc} {n : Node}
    (h : w.lookup cur c = .ok (loc, n)) : ∃ n', w'.lookup cur c = .ok (loc, n') ∧ n.Shape n' := by
  obtain ⟨dloc, d, rfl, rfl, hd, hc, hlen⟩ := lookup_ok h
  have hget : w.root.get? (dloc ++ [c]) = some n := get?_of_lookup_ok h
  obtain ⟨n', hn', hs⟩ := he.root _ _ hget
  obtain ⟨d', hd', -⟩ := he.root _ _ hd
  rw [Node.get?_append, hd', Option.bind_some, Node.get?_cons] at hn'
  cases hc' : d'.child? c with
  | none => simp [hc'] at hn'
  | some n'' =>
    simp only [hc', Option.bind_some, Node.get?_nil, Option.some.injEq] at hn'
    subst hn'
    exact ⟨_, lookup_of_child hd' hc' hlen, hs⟩

/-- A lookup that succeeds in `w` finds, in `w'`, a node of the same shape; a non-directory is
found as it was. -/
theorem lookup_not_dir (he : w.Extends w') {cur : Spot} {c : Bytes} {loc : Loc} {n : Node}
    (h : w.lookup cur c = .ok (loc, n)) (hn : n.isDir = false) : w'.lookup cur c = .ok (loc, n) := by
  obtain ⟨n', hl', hs⟩ := he.lookup h
  rw [hs.of_not_dir hn] at hl'
  exact hl'

theorem walk_nil (he : w.Extends w') {pf fo md : Bool} {links : Nat} {s s' : Spot}
    (hc : w'.Covers s s') {r : Reach} (h : w.walk pf fo md links s [] = .ok r) :
    ∃ r', w'.walk pf fo md links s' [] = .ok r' ∧ w'.CoversReach r r' := by
  rw [World.walk.eq_1] at h ⊢
  cases hn : w.nodeAt s with
  | none => simp [hn] at h
  | some n =>
    obtain ⟨n', hn', hs⟩ := he.nodeAt hc hn
    rw [hn] at h
    rw [hn']
    dsimp only at h ⊢
    rw [hs.isDir]
    split at h
    · cases h
    · rename_i hnd
      cases h
      rw [if_neg hnd]
      exact ⟨_, rfl, hc, rfl, rfl⟩

/-- **A walk that succeeds still succeeds** in a world that grew, from a spot that stands for
its start, and ends at a spot that stands for its end: nothing it went through has changed. -/
theorem walk_ok (he : w.Extends w') (hw : w.Sound) (pf : Bool) :
    ∀ (fo md : Bool) (links : Nat) (cur : Spot) (cs : List Bytes), w.DirSpot cur →
      ∀ r, w.walk pf fo md links cur cs = .ok r → ∀ cur', w'.Covers cur cur' →
        ∃ r', w'.walk pf fo md links cur' cs = .ok r' ∧ w'.CoversReach r r' := by
  intro fo md links cur cs
  induction fo, md, links, cur, cs using World.walk.induct w pf with
  | case1 fo md links cur n hn hdir =>
    intro _ r h
    rw [World.walk.eq_1, hn] at h
    simp [hdir] at h
  | case2 fo md links cur n hn hdir =>
    intro _ r h cur' hc
    exact he.walk_nil hc h
  | case3 fo md links cur hn =>
    intro _ r h
    rw [World.walk.eq_1, hn] at h
    simp at h
  | case4 fo md links cur c rest hal =>
    intro _ r h
    rw [World.walk.eq_2] at h
    simp [hal] at h
  | case5 fo md links cur c rest hal hpo =>
    intro hd r h cur' hc
    rw [World.walk.eq_2] at h ⊢
    rw [he.allows hc hd]
    simp only [hal, hpo, Bool.false_eq_true, if_true, if_false, Except.ok.injEq] at h ⊢
    subst h
    exact ⟨_, rfl, hc, rfl, rfl⟩
  | case6 fo md links cur c rest hal hpo hdot ih =>
    intro hd r h cur' hc
    rw [World.walk.eq_2] at h ⊢
    rw [he.allows hc hd]
    simp only [hal, hpo, hdot, if_true] at h ⊢
    exact ih hd r h cur' hc
  | case7 fo md links cur c rest hal hpo hdot hdd ih =>
    intro hd r h cur' hc
    rw [World.walk.eq_2] at h ⊢
    rw [he.allows hc hd]
    simp only [hal, hpo, hdot, hdd, if_true] at h ⊢
    exact ih (hd.parent hw) r h cur'.parent hc.parent
  | case8 fo md links cur c rest hal hpo hdot hdd e hl =>
    intro _ r h
    rw [World.walk.eq_2] at h
    simp [hal, hpo, hdot, hdd, hl] at h
  | case9 fo md links cur c rest hal hpo hdot hdd loc body hl hfo hmax =>
    intro _ r h
    rw [World.walk.eq_2] at h
    simp [hal, hpo, hdot, hdd, hl, hfo, hmax] at h
  | case10 fo md links cur c rest hal hpo hdot hdd loc body hl hfo hmax start final ih =>
    intro hd r h cur' hc
    obtain ⟨dloc, -, rfl, -⟩ := lookup_ok hl
    obtain rfl := hc.live_eq
    have hl' := he.lookup_not_dir hl rfl
    rw [World.walk.eq_2] at h ⊢
    rw [he.allows hc hd]
    simp only [hal, hpo, hdot, hdd, hl, hl', hfo, hmax, if_true, dite_false] at h ⊢
    have hstart : w.DirSpot (if body.startsWithSlash = true then Spot.live [] else .live dloc) := by
      split
      · exact hw.root
      · exact hd
    exact ih hstart r h _ (.refl _)
  | case11 fo md links cur c rest hal hpo hdot hdd loc body hl hfo ih =>
    intro hd r h cur' hc
    obtain ⟨dloc, -, rfl, -⟩ := lookup_ok hl
    obtain rfl := hc.live_eq
    have hl' := he.lookup_not_dir hl rfl
    have hnil : rest = [] := (by simpa using hfo : rest = [] ∧ fo = false).1
    subst hnil
    rw [World.walk.eq_2] at h ⊢
    rw [he.allows hc hd]
    simp only [hal, hpo, hdot, hdd, hl, hl', hfo] at h ⊢
    exact he.walk_nil (.refl _) h
  | case12 fo md links cur c rest hal hpo hdot hdd loc dest hl hfo hmax =>
    intro _ r h
    rw [World.walk.eq_2] at h
    simp [hal, hpo, hdot, hdd, hl, hfo, hmax] at h
  | case13 fo md links cur c rest hal hpo hdot hdd loc hfo hmax hl ih =>
    intro hd r h cur' hc
    obtain ⟨dloc, -, rfl, -⟩ := lookup_ok hl
    obtain rfl := hc.live_eq
    have hl' := he.lookup_not_dir hl rfl
    rw [World.walk.eq_2] at h ⊢
    rw [he.allows hc hd]
    simp only [hal, hpo, hdot, hdd, hl, hl', hfo, hmax, if_true, dite_false] at h ⊢
    exact ih hw.cwd r h _ he.cwd
  | case14 fo md links cur c rest hal hpo hdot hdd loc hfo hmax h hrest hl ih =>
    intro hd r hw' cur' hc
    obtain ⟨dloc, -, rfl, -⟩ := lookup_ok hl
    obtain rfl := hc.live_eq
    have hl' := he.lookup_not_dir hl rfl
    have hnil : rest = [] := List.isEmpty_iff.mp hrest
    subst hnil
    have hpf : pf = false := by simpa using hpo
    have hfo' : fo = true := by simpa using hfo
    subst hpf hfo'
    rw [World.walk.eq_2] at hw' ⊢
    rw [he.allows hc hd]
    simp only [hal, hdot, hdd, hl, hl', hmax, Bool.false_and, Bool.false_eq_true, List.isEmpty_nil,
      Bool.not_true, Bool.or_true, if_true, if_false, dite_false] at hw' ⊢
    exact he.walk_nil (.refl _) hw'
  | case15 fo md links cur c rest hal hpo hdot hdd loc hfo hmax h hrest hl =>
    intro _ r h'
    rw [World.walk.eq_2] at h'
    simp [hal, hdot, hdd, hl, hmax, hrest] at h'
  | case16 fo md links cur c rest hal hpo hdot hdd loc dest hl hfo ih =>
    intro hd r h cur' hc
    obtain ⟨dloc, -, rfl, -⟩ := lookup_ok hl
    obtain rfl := hc.live_eq
    have hl' := he.lookup_not_dir hl rfl
    have hnil : rest = [] := (by simpa using hfo : rest = [] ∧ fo = false).1
    subst hnil
    rw [World.walk.eq_2] at h ⊢
    rw [he.allows hc hd]
    simp only [hal, hpo, hdot, hdd, hl, hl', hfo] at h ⊢
    exact he.walk_nil (.refl _) h
  | case17 fo md links cur c rest hal hpo hdot hdd loc mode owner entries hl ih =>
    intro hd r h cur' hc
    obtain ⟨dloc, -, rfl, -⟩ := lookup_ok hl
    obtain rfl := hc.live_eq
    obtain ⟨n', hl', hs⟩ := he.lookup hl
    obtain ⟨es', rfl⟩ := Node.Shape.of_dir hs
    rw [World.walk.eq_2] at h ⊢
    rw [he.allows hc hd]
    simp only [hal, hpo, hdot, hdd, hl, hl'] at h ⊢
    exact ih ⟨mode, owner, entries, get?_of_lookup_ok hl⟩ r h _ (.refl _)
  | case18 fo md links cur c rest hal hpo hdot hdd loc n hnl hnm hnd hl hrest ih =>
    intro hd r h cur' hc
    obtain ⟨dloc, -, rfl, -⟩ := lookup_ok hl
    obtain rfl := hc.live_eq
    have hnd' : n.isDir = false := by
      cases n <;> simp_all [Node.isDir]
    have hl' := he.lookup_not_dir hl hnd'
    have hnil : rest = [] := List.isEmpty_iff.mp hrest
    subst hnil
    have hpf : pf = false := by simpa using hpo
    subst hpf
    rw [World.walk.eq_2] at h ⊢
    rw [he.allows hc hd]
    cases n with
    | link body => exact absurd rfl (hnl body)
    | magic dest => exact absurd rfl (hnm dest)
    | dir m o es => exact absurd rfl (hnd m o es)
    | _ =>
      simp only [hal, hdot, hdd, hl, hl', Bool.false_and, Bool.false_eq_true, if_false, if_true,
        List.isEmpty_nil] at h ⊢
      exact he.walk_nil (.refl _) h
  | case19 fo md links cur c rest hal hpo hdot hdd loc n hnl hnm hnd hl hrest =>
    intro _ r h
    rw [World.walk.eq_2] at h
    cases n with
    | link body => exact absurd rfl (hnl body)
    | magic dest => exact absurd rfl (hnm dest)
    | dir m o es => exact absurd rfl (hnd m o es)
    | _ => simp [hal, hdot, hdd, hl, hrest] at h

/-- A walk that ends at a directory of the tree ends there in a world that grew, started from the
same spot. -/
theorem walk_live (he : w.Extends w') (hw : w.Sound) {pf fo md : Bool} {links : Nat} {cur : Spot}
    {cs : List Bytes} (hd : w.DirSpot cur) {r : Reach} (h : w.walk pf fo md links cur cs = .ok r)
    {l : Loc} (hr : r.spot = .live l) : w'.walk pf fo md links cur cs = .ok r := by
  obtain ⟨r', h', hc, hrest, hlinks⟩ := he.walk_ok hw pf fo md links cur cs hd r h cur (.refl _)
  rw [hr] at hc
  have hspot := hc.live_eq
  obtain ⟨s, rest, n⟩ := r
  obtain ⟨s', rest', n'⟩ := r'
  simp only at hr hspot hrest hlinks
  subst hr hspot hrest hlinks
  exact h'

end Extends

/-- A new entry under a name its directory lacks only adds to the world. -/
theorem add_extends {dloc : Loc} {d : Node} {c : Bytes} (n : Node) (hd : w.root.get? dloc = some d)
    (hc : d.child? c = none) : w.Extends (w.add dloc c n) := by
  refine ⟨Node.Grows.modifyAt fun x hx => ?_, .refl _⟩
  rw [hd] at hx
  cases hx
  exact Node.Grows.insert n hc

end World

end DirTree
