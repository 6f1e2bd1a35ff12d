import DirTree.Proofs.EntryName
import DirTree.Proofs.Locations

/-!
# Resolving a path one more component

Resolution walks a path component by component. Walking one component more is walking the
components before it to a directory, through every link, and then taking one step from there:

    w.walk pf fo md n cur (cs ++ [c]) = (w.walk false true true n cur cs) >>= (walk pf fo md · [c])

This holds when the walk starts at a directory and the world is sound: its root is a directory
and its working directory is one, or a removed one held by one (`World.Sound`). The lemma is
what relates the paths a tree operation builds, a directory's path with a name appended, to the
directory the OS finds.

A walk that is not stopped before its last component ends at a node that is there, a directory
when one is asked for (`walk_ends`); and a last component that leads to a directory without
being followed leads there when followed too (`walk_last_follow`).
-/

namespace DirTree

open Bytes

namespace World

variable {w : World}

/-- A spot that stands for a directory: a directory of the tree, or a removed directory whose
holder stands for one too. -/
def DirSpot (w : World) : Spot → Prop
  | .live loc => ∃ m o es, w.root.get? loc = some (.dir m o es)
  | .gone _ _ p => w.DirSpot p
  | .held _ => False

/-- A world whose root is a directory and whose working directory stands for one. -/
structure Sound (w : World) : Prop where
  root : w.DirSpot (.live [])
  cwd : w.DirSpot w.cwd

theorem DirSpot.nodeAt {s : Spot} (h : w.DirSpot s) : ∃ m o es, w.nodeAt s = some (.dir m o es) := by
  cases s with
  | live loc => exact h
  | gone m o p => exact ⟨m, o, [], rfl⟩
  | held _ => exact h.elim

theorem DirSpot.parent (hw : w.Sound) {s : Spot} (h : w.DirSpot s) : w.DirSpot s.parent := by
  cases s with
  | live loc =>
    rcases List.eq_nil_or_concat loc with rfl | ⟨l, x, rfl⟩
    · exact hw.root
    · obtain ⟨m, o, es, hd⟩ := h
      simp only [Spot.parent, List.concat_eq_append, List.dropLast_concat] at hd ⊢
      rw [Node.get?_append] at hd
      cases hl : w.root.get? l with
      | none => simp [hl] at hd
      | some d =>
        cases hc : d.child? x with
        | none => simp [hl, hc, Node.get?_cons] at hd
        | some c =>
          obtain ⟨m', o', es', rfl⟩ := Node.isDir_iff.mp (Node.isDir_of_child? hc)
          exact ⟨m', o', es', hl⟩
  | gone _ _ p => exact h
  | held _ => exact h.elim

theorem slot_of_lookup_ok {cur : Spot} {c : Bytes} {loc : Loc} {n : Node}
    (h : w.lookup cur c = .ok (loc, n)) : w.slot cur c = .ok (loc, some n) := by
  simp only [lookup] at h
  cases hs : w.slot cur c with
  | error e => simp [hs, bind, Except.bind] at h
  | ok p =>
    obtain ⟨l, here⟩ := p
    cases here with
    | none => simp [hs, bind, Except.bind, throw, throwThe, MonadExceptOf.throw] at h
    | some n' =>
      simp only [hs, bind, Except.bind, pure, Except.pure, Except.ok.injEq, Prod.mk.injEq] at h
      obtain ⟨rfl, rfl⟩ := h
      rfl

/-- What a lookup that succeeds finds: the entry `c` of a directory of the tree, at the
directory's location extended by `c`. -/
theorem lookup_ok {cur : Spot} {c : Bytes} {loc : Loc} {n : Node}
    (h : w.lookup cur c = .ok (loc, n)) :
    ∃ dloc d, cur = .live dloc ∧ loc = dloc ++ [c] ∧ w.root.get? dloc = some d ∧
      d.child? c = some n ∧ c.length ≤ nameMax := by
  have hs := slot_of_lookup_ok h
  cases cur with
  | gone => simp [slot] at hs
  | held => simp [slot] at hs
  | live dloc =>
    simp only [slot] at hs
    cases hd : w.root.get? dloc with
    | none => simp [hd] at hs
    | some d =>
      rw [hd] at hs
      cases hc : d.child? c with
      | none =>
        simp only [hc] at hs
        split at hs <;> (try split at hs) <;> simp at hs
      | some n' =>
        simp only [hc] at hs
        by_cases hl : nameMax < c.length
        · simp [hl] at hs
        · simp only [hl, if_false, Except.ok.injEq, Prod.mk.injEq, Option.some.injEq] at hs
          obtain ⟨rfl, rfl⟩ := hs
          exact ⟨dloc, d, rfl, rfl, hd, hc, by omega⟩

theorem get?_of_lookup_ok {cur : Spot} {c : Bytes} {loc : Loc} {n : Node}
    (h : w.lookup cur c = .ok (loc, n)) : w.root.get? loc = some n := by
  obtain ⟨dloc, d, -, rfl, hd, hc, -⟩ := lookup_ok h
  rw [Node.get?_append, hd, Option.bind_some, Node.get?_cons, hc]
  rfl

theorem nodeAt_held (h : Held) : ∃ n, w.nodeAt (.held h) = some n ∧ n.isDir = false := by
  cases h <;> exact ⟨_, rfl, rfl⟩

theorem isEmpty_append_last (rest : List Bytes) (c : Bytes) : (rest ++ [c]).isEmpty = false := by
  simp

/-- **One component more.** From a directory of a sound world, walking `cs ++ [c]` walks `cs` to
a directory, through every link, and then takes the step `c` from there. -/
theorem walk_append_last (hw : w.Sound) (pf fo md : Bool) (c : Bytes) :
    ∀ (follow mustDir : Bool) (links : Nat) (cur : Spot) (cs : List Bytes),
      follow = true → mustDir = true → w.DirSpot cur →
      w.walk pf fo md links cur (cs ++ [c]) =
        (w.walk false follow mustDir links cur cs).bind
          fun r => w.walk pf fo md r.links r.spot [c] := by
  intro follow mustDir links cur cs
  induction follow, mustDir, links, cur, cs using World.walk.induct w false with
  | case1 follow mustDir links cur n hn hdir =>
    intro _ hm hd
    obtain ⟨m, o, es, hn'⟩ := hd.nodeAt
    rw [hn'] at hn
    cases hn
    simp [Node.isDir] at hdir
  | case2 follow mustDir links cur n hn hdir =>
    intro _ _ _
    rw [World.walk.eq_1, hn]
    simp [hdir, Except.bind]
  | case3 follow mustDir links cur hn =>
    intro _ _ hd
    obtain ⟨m, o, es, hn'⟩ := hd.nodeAt
    rw [hn'] at hn
    cases hn
  | case4 follow mustDir links cur c' rest hal =>
    intro _ _ _
    rw [List.cons_append, World.walk.eq_2, World.walk.eq_2]
    simp [hal, Except.bind]
  | case5 follow mustDir links cur c' rest hal hpo =>
    simp at hpo
  | case6 follow mustDir links cur c' rest hal hpo hdot ih =>
    intro hf hm hd
    rw [List.cons_append, World.walk.eq_2, World.walk.eq_2]
    simp only [hal, hpo, hdot, isEmpty_append_last, Bool.and_false, if_true]
    exact ih hf hm hd
  | case7 follow mustDir links cur c' rest hal hpo hdot hdd ih =>
    intro hf hm hd
    rw [List.cons_append, World.walk.eq_2, World.walk.eq_2]
    simp only [hal, hpo, hdot, hdd, isEmpty_append_last, Bool.and_false, if_true]
    exact ih hf hm (hd.parent hw)
  | case8 follow mustDir links cur c' rest hal hpo hdot hdd e hl =>
    intro _ _ _
    rw [List.cons_append, World.walk.eq_2, World.walk.eq_2]
    simp [hal, hpo, hdot, hdd, hl, Except.bind]
  | case9 follow mustDir links cur c' rest hal hpo hdot hdd loc body hl hfo hmax =>
    intro _ _ _
    rw [List.cons_append, World.walk.eq_2, World.walk.eq_2]
    simp [hal, hpo, hdot, hdd, hl, hfo, hmax, Except.bind]
  | case10 follow mustDir links cur c' rest hal hpo hdot hdd loc body hl hfo hmax start final ih =>
    intro hf hm hd
    subst hf hm
    rw [List.cons_append, World.walk.eq_2, World.walk.eq_2]
    simp only [hal, hpo, hdot, hdd, hl, hfo, hmax, isEmpty_append_last, Bool.and_false,
      Bool.not_false, Bool.true_or, Bool.false_and, Bool.or_false, if_true, dite_false,
      Bool.false_eq_true, ← List.append_assoc]
    have hstart : w.DirSpot (if body.startsWithSlash = true then Spot.live [] else cur) := by
      split
      · exact hw.root
      · exact hd
    exact ih (Bool.true_or _) (Bool.true_or _) hstart
  | case11 follow mustDir links cur c' rest hal hpo hdot hdd loc body hl hfo ih =>
    intro hf
    subst hf
    simp at hfo
  | case12 follow mustDir links cur c' rest hal hpo hdot hdd loc dest hl hfo hmax =>
    intro _ _ _
    rw [List.cons_append, World.walk.eq_2, World.walk.eq_2]
    simp [hal, hpo, hdot, hdd, hl, hfo, hmax, Except.bind]
  | case13 follow mustDir links cur c' rest hal hpo hdot hdd loc hfo hmax hl ih =>
    intro hf hm _
    subst hf hm
    rw [List.cons_append, World.walk.eq_2, World.walk.eq_2]
    simp only [hal, hpo, hdot, hdd, hl, hmax, isEmpty_append_last, Bool.and_false,
      Bool.not_false, Bool.true_or, Bool.or_true, Bool.false_eq_true, if_true, if_false,
      dite_false]
    exact ih rfl rfl hw.cwd
  | case14 follow mustDir links cur c' rest hal hpo hdot hdd loc hfo hmax h hrest hl ih =>
    intro hf hm _
    subst hf hm
    have hnil : rest = [] := List.isEmpty_iff.mp hrest
    subst hnil
    obtain ⟨n, hn, hnd⟩ := nodeAt_held (w := w) h
    rw [List.cons_append, World.walk.eq_2, World.walk.eq_2]
    simp only [hal, hdot, hdd, hl, hmax, isEmpty_append_last, Bool.and_false,
      Bool.not_false, Bool.true_or, Bool.or_true, Bool.false_eq_true, if_true, if_false,
      dite_false, List.isEmpty_nil]
    rw [World.walk.eq_1, hn]
    simp [hnd, Except.bind]
  | case15 follow mustDir links cur c' rest hal hpo hdot hdd loc hfo hmax h hrest hl =>
    intro _ _ _
    rw [List.cons_append, World.walk.eq_2, World.walk.eq_2]
    simp [hal, hdot, hdd, hl, hmax, hrest, Except.bind]
  | case16 follow mustDir links cur c' rest hal hpo hdot hdd loc dest hl hfo ih =>
    intro hf
    subst hf
    simp at hfo
  | case17 follow mustDir links cur c' rest hal hpo hdot hdd loc mode owner entries hl ih =>
    intro hf hm _
    rw [List.cons_append, World.walk.eq_2, World.walk.eq_2]
    simp only [hal, hpo, hdot, hdd, hl, isEmpty_append_last, Bool.and_false, Bool.false_eq_true,
      if_false]
    exact ih hf hm ⟨mode, owner, entries, get?_of_lookup_ok hl⟩
  | case18 follow mustDir links cur c' rest hal hpo hdot hdd loc n hnl hnm hnd hl hrest ih =>
    intro hf hm _
    subst hf hm
    have hnil : rest = [] := List.isEmpty_iff.mp hrest
    subst hnil
    have hn : w.nodeAt (.live loc) = some n := get?_of_lookup_ok hl
    rw [List.cons_append, World.walk.eq_2, World.walk.eq_2]
    cases n with
    | link body => exact absurd rfl (hnl body)
    | magic dest => exact absurd rfl (hnm dest)
    | dir m o es => exact absurd rfl (hnd m o es)
    | _ =>
      simp only [hal, hdot, hdd, hl, isEmpty_append_last, Bool.and_false, Bool.false_eq_true,
        if_true, if_false, List.isEmpty_nil]
      rw [World.walk.eq_1, hn]
      simp [Node.isDir, Except.bind]
  | case19 follow mustDir links cur c' rest hal hpo hdot hdd loc n hnl hnm hnd hl hrest =>
    intro _ _ _
    rw [List.cons_append, World.walk.eq_2, World.walk.eq_2]
    cases n with
    | link body => exact absurd rfl (hnl body)
    | magic dest => exact absurd rfl (hnm dest)
    | dir m o es => exact absurd rfl (hnd m o es)
    | _ => simp [hal, hdot, hdd, hl, hrest, Except.bind]

theorem lookup_of_child {dloc : Loc} {d n : Node} {c : Bytes} (hd : w.root.get? dloc = some d)
    (hc : d.child? c = some n) (hlen : c.length ≤ nameMax) :
    w.lookup (.live dloc) c = .ok (dloc ++ [c], n) := by
  have hl : ¬nameMax < c.length := by omega
  simp [lookup, slot, hd, hc, hl, bind, Except.bind, pure, Except.pure]

/-! ## The last step of a walk -/

theorem walk_parent_last (links : Nat) (d : Spot) (c : Bytes) (fo md : Bool) :
    w.walk true fo md links d [c] =
      if (!w.allows d searchBit) = true then .error .accessDenied else .ok ⟨d, some c, links⟩ := by
  rw [World.walk.eq_2]
  simp

/-- The last step to an entry that is not followed (it is no link, or links are not followed)
stops at the entry, which must be a directory when one is asked for. -/
theorem walk_last_entry {d : Spot} {c : Bytes} (hdot : (c == dot) = false)
    (hdd : (c == dotdot) = false) (hal : w.allows d searchBit = true) {loc : Loc} {n : Node}
    (hl : w.lookup d c = .ok (loc, n)) {fo : Bool} (hf : fo = false ∨ Kind.ofNode n ≠ .symlink)
    (md : Bool) (links : Nat) :
    w.walk false fo md links d [c] =
      if (md && !n.isDir) = true then .error .notDir else .ok ⟨.live loc, none, links⟩ := by
  have hn : w.nodeAt (.live loc) = some n := get?_of_lookup_ok hl
  rw [World.walk.eq_2]
  cases n with
  | link body =>
    have hfo : fo = false := by simpa [Kind.ofNode] using hf
    subst hfo
    simp [hal, hdot, hdd, hl, World.walk.eq_1, hn]
  | magic dest =>
    have hfo : fo = false := by simpa [Kind.ofNode] using hf
    subst hfo
    simp [hal, hdot, hdd, hl, World.walk.eq_1, hn]
  | dir m o es => simp [hal, hdot, hdd, hl, World.walk.eq_1, hn, Node.isDir]
  | _ => simp [hal, hdot, hdd, hl, World.walk.eq_1, hn]

theorem walk_last_missing {d : Spot} {c : Bytes} (hdot : (c == dot) = false)
    (hdd : (c == dotdot) = false) (hal : w.allows d searchBit = true) {e : Errno}
    (hl : w.lookup d c = .error e) (fo md : Bool) (links : Nat) :
    w.walk false fo md links d [c] = .error e := by
  rw [World.walk.eq_2]
  simp [hal, hdot, hdd, hl]

end World

theorem Kind.isDir_of_ofNode {n : Node} (h : Kind.ofNode n = .symlink) : n.isDir = false := by
  cases n <;> simp_all [Kind.ofNode, Node.isDir]

namespace World

variable {w : World}

/-- **Where a whole walk ends.** A walk that is not stopped before its last component ends at a
node that is there, a directory when one is asked for, with no component left. -/
theorem walk_ends :
    ∀ (fo md : Bool) (links : Nat) (cur : Spot) (cs : List Bytes) (r : Reach),
      w.walk false fo md links cur cs = .ok r →
        ∃ n, w.nodeAt r.spot = some n ∧ (md = true → n.isDir = true) ∧ r.rest = none := by
  intro fo md links cur cs
  induction fo, md, links, cur, cs using World.walk.induct w false with
  | case1 fo md links cur n hn hdir =>
    intro r h
    rw [World.walk.eq_1, hn] at h
    simp [hdir] at h
  | case2 fo md links cur n hn hdir =>
    intro r h
    rw [World.walk.eq_1, hn] at h
    simp only [hdir, Bool.false_eq_true, if_false, Except.ok.injEq] at h
    subst h
    refine ⟨n, hn, fun hmd => ?_, rfl⟩
    simpa [hmd] using hdir
  | case3 fo md links cur hn =>
    intro r h
    rw [World.walk.eq_1, hn] at h
    cases h
  | case4 fo md links cur c rest hal =>
    intro r h
    rw [World.walk.eq_2] at h
    simp [hal] at h
  | case5 fo md links cur c rest hal hpo =>
    simp at hpo
  | case6 fo md links cur c rest hal hpo hdot ih =>
    intro r h
    rw [World.walk.eq_2] at h
    simp only [hal, hpo, hdot, if_true] at h
    exact ih r h
  | case7 fo md links cur c rest hal hpo hdot hdd ih =>
    intro r h
    rw [World.walk.eq_2] at h
    simp only [hal, hpo, hdot, hdd, if_true] at h
    exact ih r h
  | case8 fo md links cur c rest hal hpo hdot hdd e hl =>
    intro r h
    rw [World.walk.eq_2] at h
    simp [hal, hpo, hdot, hdd, hl] at h
  | case9 fo md links cur c rest hal hpo hdot hdd loc body hl hfo hmax =>
    intro r h
    rw [World.walk.eq_2] at h
    simp [hal, hpo, hdot, hdd, hl, hfo, hmax] at h
  | case10 fo md links cur c rest hal hpo hdot hdd loc body hl hfo hmax start final ih =>
    intro r h
    rw [World.walk.eq_2] at h
    simp only [hal, hpo, hdot, hdd, hl, hfo, hmax, if_true, dite_false] at h
    obtain ⟨n, hn, hd, hr⟩ := ih r h
    exact ⟨n, hn, fun hmd => hd (by simp [hmd]), hr⟩
  | case11 fo md links cur c rest hal hpo hdot hdd loc body hl hfo ih =>
    intro r h
    rw [World.walk.eq_2] at h
    simp only [hal, hpo, hdot, hdd, hl, hfo] at h
    exact ih r h
  | case12 fo md links cur c rest hal hpo hdot hdd loc dest hl hfo hmax =>
    intro r h
    rw [World.walk.eq_2] at h
    simp [hal, hpo, hdot, hdd, hl, hfo, hmax] at h
  | case13 fo md links cur c rest hal hpo hdot hdd loc hfo hmax hl ih =>
    intro r h
    rw [World.walk.eq_2] at h
    simp only [hal, hpo, hdot, hdd, hl, hfo, hmax, if_true, dite_false] at h
    exact ih r h
  | case14 fo md links cur c rest hal hpo hdot hdd loc hfo hmax hh hrest hl ih =>
    intro r h
    have hfo' : fo = true := by simpa [hrest] using hfo
    subst hfo'
    rw [World.walk.eq_2] at h
    simp only [hal, hdot, hdd, hl, hmax, hrest, Bool.false_eq_true, Bool.false_and, Bool.or_true,
      if_true, if_false, dite_false] at h
    exact ih r h
  | case15 fo md links cur c rest hal hpo hdot hdd loc hfo hmax hh hrest hl =>
    intro r h
    rw [World.walk.eq_2] at h
    simp [hal, hdot, hdd, hl, hmax, hrest] at h
  | case16 fo md links cur c rest hal hpo hdot hdd loc dest hl hfo ih =>
    intro r h
    rw [World.walk.eq_2] at h
    simp only [hal, hpo, hdot, hdd, hl, hfo] at h
    exact ih r h
  | case17 fo md links cur c rest hal hpo hdot hdd loc mode owner entries hl ih =>
    intro r h
    rw [World.walk.eq_2] at h
    simp only [hal, hpo, hdot, hdd, hl] at h
    exact ih r h
  | case18 fo md links cur c rest hal hpo hdot hdd loc n hnl hnm hnd hl hrest ih =>
    intro r h
    rw [World.walk.eq_2] at h
    cases n with
    | link body => exact absurd rfl (hnl body)
    | magic dest => exact absurd rfl (hnm dest)
    | dir m o es => exact absurd rfl (hnd m o es)
    | _ =>
      simp only [hal, hdot, hdd, hl, hrest, if_true] at h
      exact ih r h
  | case19 fo md links cur c rest hal hpo hdot hdd loc n hnl hnm hnd hl hrest =>
    intro r h
    rw [World.walk.eq_2] at h
    cases n with
    | link body => exact absurd rfl (hnl body)
    | magic dest => exact absurd rfl (hnm dest)
    | dir m o es => exact absurd rfl (hnd m o es)
    | _ => simp [hal, hdot, hdd, hl, hrest] at h

/-- **A failure on the way stays a failure.** Once the components `cs` cannot be walked to a
directory, no walk of `cs` followed by more components gets further. -/
theorem walk_append_error (hw : w.Sound) {links : Nat} {cur : Spot} (hd : w.DirSpot cur)
    {cs : List Bytes} {e : Errno} (h : w.walk false true true links cur cs = .error e) :
    ∀ (ds : List Bytes) (fo md : Bool), ds ≠ [] → w.walk false fo md links cur (cs ++ ds) = .error e := by
  intro ds
  -- by induction from the end of `ds`, splitting off its last component each time
  obtain ⟨rs, rfl⟩ : ∃ rs, ds = rs.reverse := ⟨ds.reverse, (List.reverse_reverse ds).symm⟩
  induction rs with
  | nil => intro _ _ hne; exact absurd rfl hne
  | cons d rs ih =>
    intro fo md _
    rw [List.reverse_cons, ← List.append_assoc,
      walk_append_last hw false fo md d true true links cur (cs ++ rs.reverse) rfl rfl hd]
    cases rs with
    | nil =>
      rw [List.reverse_nil, List.append_nil, h]
      rfl
    | cons r rs =>
      rw [ih true true (by simp)]
      rfl

/-- The check at the end of a walk asked for a directory: the node there must be one. -/
def dirCheck (w : World) (r : Reach) : Except Errno Reach :=
  match w.nodeAt r.spot with
  | some n => if n.isDir then .ok r else .error .notDir
  | none => .error .noEntry

theorem bind_dirCheck (fo : Bool) (links : Nat) (cur : Spot) (cs : List Bytes) :
    (w.walk false fo true links cur cs).bind w.dirCheck = w.walk false fo true links cur cs := by
  cases h : w.walk false fo true links cur cs with
  | error e => rfl
  | ok r =>
    obtain ⟨n, hn, hdir, -⟩ := walk_ends fo true links cur cs r h
    simp [Except.bind, dirCheck, hn, hdir rfl]

/-- **Asking for a directory only checks the end.** A walk that must end at a directory is the
walk that need not, followed by the check: nothing on the way depends on it. -/
theorem walk_mustDir :
    ∀ (fo md : Bool) (links : Nat) (cur : Spot) (cs : List Bytes), md = false →
      w.walk false fo true links cur cs = (w.walk false fo md links cur cs).bind w.dirCheck := by
  intro fo md links cur cs
  induction fo, md, links, cur, cs using World.walk.induct w false with
  | case1 fo md links cur n hn hdir =>
    intro hmd
    subst hmd
    simp at hdir
  | case2 fo md links cur n hn hdir =>
    intro hmd
    subst hmd
    rw [World.walk.eq_1, World.walk.eq_1, hn]
    cases hd : n.isDir <;> simp [dirCheck, hn, hd, Except.bind]
  | case3 fo md links cur hn =>
    intro _
    rw [World.walk.eq_1, World.walk.eq_1, hn]
    rfl
  | case4 fo md links cur c rest hal =>
    intro _
    rw [World.walk.eq_2, World.walk.eq_2]
    simp [hal, Except.bind]
  | case5 fo md links cur c rest hal hpo =>
    simp at hpo
  | case6 fo md links cur c rest hal hpo hdot ih =>
    intro hmd
    rw [World.walk.eq_2, World.walk.eq_2]
    simp only [hal, hpo, hdot, if_true, Bool.false_eq_true, if_false]
    exact ih hmd
  | case7 fo md links cur c rest hal hpo hdot hdd ih =>
    intro hmd
    rw [World.walk.eq_2, World.walk.eq_2]
    simp only [hal, hpo, hdot, hdd, if_true, Bool.false_eq_true, if_false]
    exact ih hmd
  | case8 fo md links cur c rest hal hpo hdot hdd e hl =>
    intro _
    rw [World.walk.eq_2, World.walk.eq_2]
    simp [hal, hpo, hdot, hdd, hl, Except.bind]
  | case9 fo md links cur c rest hal hpo hdot hdd loc body hl hfo hmax =>
    intro _
    rw [World.walk.eq_2, World.walk.eq_2]
    simp [hal, hpo, hdot, hdd, hl, hfo, hmax, Except.bind]
  | case10 fo md links cur c rest hal hpo hdot hdd loc body hl hfo hmax start final ih =>
    intro hmd
    subst hmd
    rw [World.walk.eq_2, World.walk.eq_2]
    simp only [hal, hpo, hdot, hdd, hl, hfo, hmax, if_true, dite_false, Bool.false_eq_true,
      if_false, Bool.true_or, Bool.false_or]
    by_cases hfin : (rest.isEmpty && Bytes.endsWithSlash body) = true
    · -- a final link that ends in `/` asks for a directory either way
      simp only [hfin]
      exact (bind_dirCheck _ _ _ _).symm
    · exact ih (by simpa [final] using hfin)
  | case11 fo md links cur c rest hal hpo hdot hdd loc body hl hfo ih =>
    intro hmd
    rw [World.walk.eq_2, World.walk.eq_2]
    simp only [hal, hpo, hdot, hdd, hl, hfo, Bool.false_eq_true, if_false]
    exact ih hmd
  | case12 fo md links cur c rest hal hpo hdot hdd loc dest hl hfo hmax =>
    intro _
    rw [World.walk.eq_2, World.walk.eq_2]
    simp [hal, hpo, hdot, hdd, hl, hfo, hmax, Except.bind]
  | case13 fo md links cur c rest hal hpo hdot hdd loc hfo hmax hl ih =>
    intro hmd
    rw [World.walk.eq_2, World.walk.eq_2]
    simp only [hal, hpo, hdot, hdd, hl, hfo, hmax, if_true, dite_false, Bool.false_eq_true,
      if_false]
    exact ih hmd
  | case14 fo md links cur c rest hal hpo hdot hdd loc hfo hmax hh hrest hl ih =>
    intro hmd
    have hfo' : fo = true := by simpa [hrest] using hfo
    subst hfo'
    rw [World.walk.eq_2, World.walk.eq_2]
    simp only [hal, hdot, hdd, hl, hmax, hrest, Bool.false_eq_true, Bool.false_and, Bool.or_true,
      if_true, if_false, dite_false]
    exact ih hmd
  | case15 fo md links cur c rest hal hpo hdot hdd loc hfo hmax hh hrest hl =>
    intro _
    rw [World.walk.eq_2, World.walk.eq_2]
    simp [hal, hdot, hdd, hl, hmax, hrest, Except.bind]
  | case16 fo md links cur c rest hal hpo hdot hdd loc dest hl hfo ih =>
    intro hmd
    rw [World.walk.eq_2, World.walk.eq_2]
    simp only [hal, hpo, hdot, hdd, hl, hfo, Bool.false_eq_true, if_false]
    exact ih hmd
  | case17 fo md links cur c rest hal hpo hdot hdd loc mode owner entries hl ih =>
    intro hmd
    rw [World.walk.eq_2, World.walk.eq_2]
    simp only [hal, hpo, hdot, hdd, hl, Bool.false_eq_true, if_false]
    exact ih hmd
  | case18 fo md links cur c rest hal hpo hdot hdd loc n hnl hnm hnd hl hrest ih =>
    intro hmd
    rw [World.walk.eq_2, World.walk.eq_2]
    cases n with
    | link body => exact absurd rfl (hnl body)
    | magic dest => exact absurd rfl (hnm dest)
    | dir m o es => exact absurd rfl (hnd m o es)
    | _ =>
      simp only [hal, hdot, hdd, hl, hrest, if_true, Bool.false_eq_true, if_false]
      exact ih hmd
  | case19 fo md links cur c rest hal hpo hdot hdd loc n hnl hnm hnd hl hrest =>
    intro _
    rw [World.walk.eq_2, World.walk.eq_2]
    cases n with
    | link body => exact absurd rfl (hnl body)
    | magic dest => exact absurd rfl (hnm dest)
    | dir m o es => exact absurd rfl (hnd m o es)
    | _ => simp [hal, hdot, hdd, hl, hrest, Except.bind]

theorem nodeAt_dir_of_walk {fo : Bool} {links : Nat} {cur : Spot} {cs : List Bytes} {r : Reach}
    (h : w.walk false fo true links cur cs = .ok r) : ∃ m o es, w.nodeAt r.spot = some (.dir m o es) := by
  obtain ⟨n, hn, hdir, -⟩ := walk_ends fo true links cur cs r h
  obtain ⟨m, o, es, rfl⟩ := Node.isDir_iff.mp (hdir rfl)
  exact ⟨m, o, es, hn⟩

/-- Following the last component makes no difference when it leads to a directory without
being followed. -/
theorem walk_last_follow {d : Spot} {c : Bytes} {md : Bool} {links : Nat} {r : Reach}
    (h : w.walk false false md links d [c] = .ok r)
    (hn : ∃ n, w.nodeAt r.spot = some n ∧ n.isDir = true) :
    w.walk false true md links d [c] = .ok r := by
  cases hal : w.allows d searchBit with
  | false =>
    rw [World.walk.eq_2] at h
    simp [hal] at h
  | true =>
  by_cases hdot : (c == dot) = true
  · rw [World.walk.eq_2] at h ⊢
    simpa [hal, hdot, World.walk.eq_1] using h
  by_cases hdd : (c == dotdot) = true
  · rw [World.walk.eq_2] at h ⊢
    simpa [hal, hdot, hdd, World.walk.eq_1] using h
  simp only [Bool.not_eq_true] at hdot hdd
  cases hl : w.lookup d c with
  | error e =>
    rw [walk_last_missing hdot hdd hal hl] at h
    cases h
  | ok p =>
    obtain ⟨loc, n⟩ := p
    rw [walk_last_entry hdot hdd hal hl (.inl rfl)] at h
    by_cases hk : Kind.ofNode n = .symlink
    · -- an entry that is a link is not followed: the walk ends at it, and it is no directory
      exfalso
      split at h
      · cases h
      · cases h
        obtain ⟨n', hn', hd'⟩ := hn
        have hget : w.nodeAt (.live loc) = some n := get?_of_lookup_ok hl
        rw [hget] at hn'
        cases hn'
        rw [Kind.isDir_of_ofNode hk] at hd'
        cases hd'
    · rw [walk_last_entry hdot hdd hal hl (.inr hk)]
      exact h

end World

end DirTree
