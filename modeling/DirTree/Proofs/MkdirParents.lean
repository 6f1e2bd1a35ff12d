import DirTree.Proofs.Calls
import DirTree.Tree.Mkdir

/-!
# Making a directory with its parents

A path here is *spelled*: a start, nothing for the working directory or `/` for the root,
followed by plain names (valid entry names other than `.` and `..`). A recursive `mkdir` of such
a path finds the first name that is missing and makes it, then each name after it, every one a
new empty directory of the user with the given mode, bits above `0o1777` dropped, inside the one
made before:

    mkdirTree (q/x/y₁/…/yₖ) mode = (ok, w.addDirs L (mode % 1024) [x, y₁, …, yₖ])
                                   (q reaches the directory L, which lacks x)

A path that already names a directory, or a link to one, is left alone, which is an error unless
the flags are permissive. A path below something that blocks a directory (neither a directory
nor a link to one) fails naming that thing, and changes nothing.

The recursion runs from the end of the path back to its start, so the proofs go by induction on
the names from the end: the world after the names before the last one is described by
`MadeBelow`, and one more name keeps it (`MadeBelow.next`).
-/

namespace DirTree

open Bytes

/-- A name as a spelled path holds it: a valid entry name other than `.` and `..`. -/
def PlainName (n : Bytes) : Prop := EntryName n ∧ isDotEntry n = false

instance (n : Bytes) : Decidable (PlainName n) := inferInstanceAs (Decidable (_ ∧ _))

/-- A path spelled from a start, nothing for the working directory or `/` for the root, and
plain names. -/
structure Spelled (start : Path) (ns : List Bytes) : Prop where
  base : start.bytes = [] ∨ start.bytes = [slash]
  names : ∀ n ∈ ns, PlainName n

namespace Path

def appendAll (p : Path) (ns : List Bytes) : Path := ns.foldl append p

end Path

namespace World

/-- The world with a chain of new empty directories of the user with mode `m`: the first name
in the directory at `L`, each later one inside the one before. -/
def addDirs (w : World) (L : Loc) (m : Nat) : List Bytes → World
  | [] => w
  | x :: xs => (w.add L x (.dir m .user [])).addDirs (L ++ [x]) m xs

/-- What stands at a path and keeps a directory from being made there or below: something that
is not a directory, and, if it is a link, one that leads to something that is not a directory
either, or to nothing. -/
def Blocks (w : World) (p : Bytes) : Prop :=
  ∃ n, w.lstat p = .ok n ∧ n.isDir = false ∧
    (Kind.ofNode n = .symlink →
      (∃ n', w.stat p = .ok n' ∧ n'.isDir = false) ∨ ∃ e, w.stat p = .error e ∧ e.meansMissing = true)

end World


namespace Path

@[simp] theorem appendAll_nil (p : Path) : p.appendAll [] = p := rfl

@[simp] theorem appendAll_cons (p : Path) (x : Bytes) (ns : List Bytes) :
    p.appendAll (x :: ns) = (p.append x).appendAll ns := rfl

theorem appendAll_append (p : Path) (ns ms : List Bytes) :
    p.appendAll (ns ++ ms) = (p.appendAll ns).appendAll ms :=
  List.foldl_append

theorem appendAll_snoc (p : Path) (ns : List Bytes) (y : Bytes) :
    p.appendAll (ns ++ [y]) = (p.appendAll ns).append y := by
  rw [appendAll_append]
  rfl

theorem prefix_appendAll (p : Path) {ns : List Bytes} (hn : ∀ n ∈ ns, EntryName n) :
    p.bytes <+: (p.appendAll ns).bytes := by
  induction ns generalizing p with
  | nil => exact List.prefix_refl _
  | cons x ns ih =>
    have hx : EntryName x := hn x List.mem_cons_self
    exact (prefix_append_name p hx).trans (ih (p.append x) fun n h => hn n (List.mem_cons_of_mem x h))

theorem len_le_appendAll (p : Path) {ns : List Bytes} (hn : ∀ n ∈ ns, EntryName n) :
    p.len ≤ (p.appendAll ns).len :=
  (prefix_appendAll p hn).length_le

theorem components_appendAll (p : Path) {ns : List Bytes} (hn : ∀ n ∈ ns, EntryName n) :
    components (p.appendAll ns).bytes = components p.bytes ++ ns := by
  induction ns generalizing p with
  | nil => simp
  | cons x ns ih =>
    rw [appendAll_cons, ih _ fun n h => hn n (List.mem_cons_of_mem x h),
      components_append_name p (hn x List.mem_cons_self)]
    simp

theorem components_of_base {B : Path} (h : B.bytes = [] ∨ B.bytes = [slash]) :
    components B.bytes = [] := by
  rcases h with h | h <;> rw [h] <;> rfl

theorem isEmpty_of_ne {p : Path} (h : p.bytes ≠ []) : p.isEmpty = false := by
  unfold isEmpty
  cases hb : p.bytes with
  | nil => exact absurd hb h
  | cons => rfl

theorem appendAll_ends_in_name (p : Path) {ns : List Bytes} (hne : ns ≠ [])
    (hn : ∀ n ∈ ns, EntryName n) :
    (p.appendAll ns).bytes ≠ [] ∧ endsWithSlash (p.appendAll ns).bytes = false := by
  obtain ⟨ms, y, rfl⟩ := (List.eq_nil_or_concat ns).resolve_left hne
  have hy : EntryName y := hn y (by simp)
  rw [List.concat_eq_append, appendAll_snoc]
  exact ⟨append_name_ne_empty _ hy, endsWithSlash_append_name _ hy⟩

theorem dirname_appendAll_snoc (p : Path) {ns : List Bytes} (hne : ns ≠ []) {y : Bytes}
    (hn : ∀ n ∈ ns ++ [y], EntryName n) : (p.appendAll (ns ++ [y])).dirname = p.appendAll ns := by
  have hns : ∀ n ∈ ns, EntryName n := fun n h => hn n (List.mem_append_left _ h)
  obtain ⟨hnil, hslash⟩ := appendAll_ends_in_name p hne hns
  rw [appendAll_snoc]
  exact dirname_append_name hnil hslash (hn y (by simp))

end Path

namespace Spelled

variable {B : Path} {ns ms : List Bytes}

theorem left (h : Spelled B (ns ++ ms)) : Spelled B ns :=
  ⟨h.base, fun n hn => h.names n (List.mem_append_left ms hn)⟩

theorem entry (h : Spelled B ns) : ∀ n ∈ ns, EntryName n := fun n hn => (h.names n hn).1

theorem right (h : Spelled B (ns ++ ms)) : ∀ n ∈ ms, EntryName n :=
  fun n hn => h.entry n (List.mem_append_right ns hn)

theorem plain_last {y : Bytes} (h : Spelled B (ns ++ [y])) : PlainName y :=
  h.names y (List.mem_append_right ns List.mem_cons_self)

/-- A spelled path that ends in a name has the names as its components, ends in the last one,
which is neither `.` nor `..`, and not in `/`. -/
theorem walkable {cs : List Bytes} {c : Bytes} (h : Spelled B (cs ++ [c])) :
    components (B.appendAll (cs ++ [c])).bytes = cs ++ [c] ∧ (c == dot) = false ∧
      (c == dotdot) = false ∧ endsWithSlash (B.appendAll (cs ++ [c])).bytes = false := by
  have hdot := (h.plain_last).2
  simp only [isDotEntry, Bool.or_eq_false_iff] at hdot
  refine ⟨?_, hdot.1, hdot.2, (Path.appendAll_ends_in_name B (by simp) h.entry).2⟩
  rw [Path.components_appendAll B h.entry, Path.components_of_base h.base, List.nil_append]

end Spelled

/-! ## Calls on spelled paths -/

namespace World

variable {w : World}

theorem start_appendAll {p : Path} {s : Spot} (hs : w.start p.bytes = .ok s) {ns : List Bytes}
    (hn : ∀ n ∈ ns, EntryName n) (hlen : (p.appendAll ns).len < pathMax) :
    w.start (p.appendAll ns).bytes = .ok s := by
  induction ns generalizing p with
  | nil => exact hs
  | cons x ns ih =>
    have hx : EntryName x := hn x List.mem_cons_self
    have hn' : ∀ n ∈ ns, EntryName n := fun n h => hn n (List.mem_cons_of_mem x h)
    have hlen' : (p.append x).len < pathMax :=
      lt_of_le_of_lt (Path.len_le_appendAll (p.append x) hn') hlen
    exact ih (start_append_name hs hx hlen') hn' hlen

theorem start_of_append_name {p : Path} {x : Bytes} (hx : EntryName x) (hp : p.bytes ≠ [])
    {s : Spot} (hs : w.start (p.append x).bytes = .ok s) : w.start p.bytes = .ok s := by
  have hle : p.bytes.length ≤ (p.append x).bytes.length := (Path.prefix_append_name p hx).length_le
  unfold start at hs ⊢
  by_cases h1 : pathMax ≤ (p.append x).bytes.length
  · simp [h1] at hs
  rw [if_neg h1, if_neg (by simpa using Path.append_name_ne_empty p hx),
    Path.startsWithSlash_append_name hp hx] at hs
  rw [if_neg (by omega), if_neg (by simpa using hp)]
  exact hs

theorem walk_last_lookup {fo md : Bool} {links : Nat} {d : Spot} {c : Bytes} {r : Reach}
    (h : w.walk false fo md links d [c] = .ok r) (hdot : (c == dot) = false)
    (hdd : (c == dotdot) = false) :
    ∃ loc n, w.allows d searchBit = true ∧ w.lookup d c = .ok (loc, n) := by
  rw [World.walk.eq_2] at h
  cases hal : w.allows d searchBit with
  | false => simp [hal] at h
  | true =>
    cases hl : w.lookup d c with
    | error e => simp [hal, hdot, hdd, hl] at h
    | ok ln => exact ⟨ln.1, ln.2, rfl, rfl⟩

/-- **Asking a resolution for a directory only checks where it ends.** -/
theorem resolve_mustDir (p : Bytes) (fo : Bool) :
    w.resolve p fo true = (w.resolve p fo false).bind fun s =>
      match w.nodeAt s with
      | some n => if n.isDir then .ok s else .error .notDir
      | none => .error .noEntry := by
  unfold resolve
  cases hs : w.start p with
  | error e => rfl
  | ok s =>
    show (w.walk false _ (true || endsWithSlash p) 0 s _).bind _ =
      ((w.walk false _ (false || endsWithSlash p) 0 s _).bind _).bind _
    cases hsl : endsWithSlash p with
    | true =>
      -- a final `/` asks for a directory either way, and the walk ends at one
      simp only [Bool.or_true]
      cases h : w.walk false true true 0 s (components p) with
      | error e => rfl
      | ok r =>
        obtain ⟨n, hn, hdir, -⟩ := walk_ends true true 0 s (components p) r h
        simp [Except.bind, pure, Except.pure, hn, hdir rfl]
    | false =>
      rw [Bool.true_or, Bool.false_or, walk_mustDir (fo || false) false 0 s (components p) rfl]
      cases h : w.walk false (fo || false) false 0 s (components p) with
      | error e => rfl
      | ok r =>
        simp only [Except.bind, dirCheck, pure, Except.pure]
        cases w.nodeAt r.spot with
        | none => rfl
        | some n => by_cases hd : n.isDir = true <;> simp [hd]

section LastName

/-! A path whose components end in a name other than `.` and `..`, with no final `/`. -/

variable {p : Bytes} {s : Spot} {cs : List Bytes} {c : Bytes} (hw : w.Sound)
  (hs : w.start p = .ok s) (hc : components p = cs ++ [c]) (hdot : (c == dot) = false)
  (hdd : (c == dotdot) = false) (hslash : endsWithSlash p = false)
include hw hs hc hdot hdd hslash

/-- A path ending in a name that resolves has a route to the name, which its directory
holds. -/
theorem route_of_resolve {fo md : Bool} {sp : Spot} (h : w.resolve p fo md = .ok sp) :
    ∃ Lp loc n, w.resolveParent p = .ok (.live Lp, .name c false) ∧
      w.lookup (.live Lp) c = .ok (loc, n) := by
  rw [resolve_split hw hs hc] at h
  obtain ⟨r, hpre, h⟩ := bind_eq_ok.mp h
  obtain ⟨r', hlast, -⟩ := bind_eq_ok.mp h
  obtain ⟨loc, n, hal, hl⟩ := walk_last_lookup hlast hdot hdd
  obtain ⟨Lp, d, hspot, -⟩ := lookup_ok hl
  rw [hspot] at hal hl
  refine ⟨Lp, loc, n, ?_, hl⟩
  rw [resolveParent_split hw hs hc, hpre]
  simp [hspot, hal, hslash, Last.ofComponent, hdot, hdd, Except.bind]

/-- Where `stat` finds a node at a path ending in a name, `lstat` finds one too: the same one,
unless it is a link. -/
theorem lstat_of_stat {n' : Node} (h : w.stat p = .ok n') :
    ∃ n, w.lstat p = .ok n ∧ (Kind.ofNode n = .symlink ∨ n = n') := by
  obtain ⟨sp, hres, hnode⟩ := bind_eq_ok.mp h
  obtain ⟨Lp, loc, n, hroute, hl⟩ := route_of_resolve hw hs hc hdot hdd hslash hres
  refine ⟨n, lstat_of_route hw hroute hl (fun h => nomatch h), ?_⟩
  by_cases hk : Kind.ofNode n = .symlink
  · exact .inl hk
  · -- not a link, so following it changes nothing
    right
    rw [resolve_of_route hw hroute hl (.inr hk) rfl, Except.ok.injEq] at hres
    subst hres
    have hn : w.nodeAt (.live loc) = some n := get?_of_lookup_ok hl
    rw [nodeOf_eq_ok, hn] at hnode
    exact Option.some.inj hnode

theorem stat_of_lstat {n : Node} (h : w.lstat p = .ok n) (hk : Kind.ofNode n ≠ .symlink) :
    w.stat p = .ok n := by
  obtain ⟨sp, hres, -⟩ := bind_eq_ok.mp h
  obtain ⟨Lp, loc, n₀, hroute, hl⟩ := route_of_resolve hw hs hc hdot hdd hslash hres
  -- the entry found is `n` itself, since `lstat` stops at it
  have hsame : n₀ = n := by
    rw [lstat_of_route hw hroute hl (fun h => nomatch h)] at h
    exact Except.ok.inj h
  subst hsame
  show (w.resolve p true false).bind w.nodeOf = _
  rw [resolve_of_route hw hroute hl (.inr hk) rfl]
  exact nodeOf_eq_ok.mpr (get?_of_lookup_ok hl)

/-- Something that blocks a directory makes asking for one there fail, as missing. -/
theorem resolve_dir_of_blocks (hb : w.Blocks p) :
    ∃ e, w.resolve p true true = .error e ∧ e.meansMissing = true := by
  obtain ⟨n, hl, hnd, hlink⟩ := hb
  rw [resolve_mustDir]
  -- what `stat` finds is not a directory, or nothing at all
  have hstat : (∃ n', w.stat p = .ok n' ∧ n'.isDir = false) ∨
      ∃ e, w.stat p = .error e ∧ e.meansMissing = true := by
    by_cases hk : Kind.ofNode n = .symlink
    · exact hlink hk
    · exact .inl ⟨n, stat_of_lstat hw hs hc hdot hdd hslash hl hk, hnd⟩
  rcases hstat with ⟨n', hst, hnd'⟩ | ⟨e, hst, hm⟩
  · obtain ⟨sp, hres, hnode⟩ := bind_eq_ok.mp hst
    rw [hres]
    exact ⟨.notDir, by simp [Except.bind, nodeOf_eq_ok.mp hnode, hnd'], rfl⟩
  · cases hres : w.resolve p true false with
    | error e' =>
      have he : e' = e := by
        have := hst
        simp only [stat, bind, Except.bind, hres] at this
        exact Except.error.inj this
      exact ⟨e', rfl, he ▸ hm⟩
    | ok sp =>
      have hnone : w.nodeAt sp = none := by
        cases hn : w.nodeAt sp with
        | none => rfl
        | some n₁ =>
          simp [stat, bind, Except.bind, hres, nodeOf, hn] at hst
      exact ⟨.noEntry, by simp [Except.bind, hnone], rfl⟩

end LastName

theorem walk_of_resolve_error {p : Bytes} {s : Spot} (hs : w.start p = .ok s) {fo md : Bool}
    {e : Errno} (h : w.resolve p fo md = .error e) :
    w.walk false (fo || endsWithSlash p) (md || endsWithSlash p) 0 s (components p) = .error e := by
  unfold resolve at h
  rw [hs] at h
  cases hwalk : w.walk false (fo || endsWithSlash p) (md || endsWithSlash p) 0 s (components p) with
  | error e' =>
    simp only [bind, Except.bind, hwalk, Except.error.injEq] at h
    rw [h]
  | ok r => simp [bind, Except.bind, hwalk, pure, Except.pure] at h

/-- Below a path whose walk fails, a longer path fails the same way. -/
theorem lstat_below_error (hw : w.Sound) {p : Path} {s : Spot} (hs : w.start p.bytes = .ok s)
    {e : Errno} (he : w.walk false true true 0 s (components p.bytes) = .error e)
    {ys : List Bytes} (hne : ys ≠ []) (hys : ∀ y ∈ ys, EntryName y)
    (hlen : (p.appendAll ys).len < pathMax) : w.lstat (p.appendAll ys).bytes = .error e := by
  show (w.resolve _ false false).bind w.nodeOf = _
  unfold resolve
  rw [start_appendAll hs hys hlen, Path.components_appendAll p hys]
  show ((w.walk false _ _ 0 s (components p.bytes ++ ys)).bind _).bind _ = _
  rw [walk_append_error hw (start_dirSpot hw hs) he ys _ _ hne]
  rfl

/-! ## Making a directory along a route -/

theorem lookup_of_missing {L : Loc} {d : Node} {x : Bytes} (hL : w.root.get? L = some d)
    (hx : d.child? x = none) (hlen : x.length ≤ nameMax) : w.lookup (.live L) x = .error .noEntry := by
  have hl : ¬nameMax < x.length := by omega
  cases d with
  | dir m o es =>
    rw [Node.child?_dir] at hx
    cases o <;>
      simp [lookup, slot, hL, hx, hl, bind, Except.bind, throw, throwThe, MonadExceptOf.throw]
  | _ => simp [lookup, slot, hL, hx, hl, bind, Except.bind, throw, throwThe, MonadExceptOf.throw]

/-- `lstat` along a route to a name that is not found fails as the lookup does. -/
theorem lstat_of_route_missing (hw : w.Sound) {p : Bytes} {L : Loc} {x : Bytes} {slash : Bool}
    (hroute : w.resolveParent p = .ok (.live L, .name x slash)) {e : Errno}
    (hl : w.lookup (.live L) x = .error e) : w.lstat p = .error e := by
  obtain ⟨s, cs, r, hs, hcs, hpre, hspot, hal, -, hdot, hdd⟩ := resolveParent_name hw hroute
  show (w.resolve p false false).bind w.nodeOf = _
  rw [resolve_split hw hs hcs, hpre]
  show ((w.walk false _ _ r.links r.spot [x]).bind _).bind _ = _
  rw [hspot, walk_last_missing hdot hdd hal hl]
  rfl

theorem walk_of_route_missing (hw : w.Sound) {p : Bytes} {L : Loc} {x : Bytes} {slash : Bool}
    (hroute : w.resolveParent p = .ok (.live L, .name x slash)) {e : Errno}
    (hl : w.lookup (.live L) x = .error e) :
    ∃ s, w.start p = .ok s ∧ w.walk false true true 0 s (components p) = .error e := by
  obtain ⟨s, cs, r, hs, hcs, hpre, hspot, hal, -, hdot, hdd⟩ := resolveParent_name hw hroute
  refine ⟨s, hs, ?_⟩
  rw [hcs, walk_append_last hw false true true x true true 0 s cs rfl rfl (start_dirSpot hw hs), hpre]
  show w.walk false true true r.links r.spot [x] = _
  rw [hspot]
  exact walk_last_missing hdot hdd hal hl true true r.links

/-- The directory part of a route, when it is a path of its own, names a directory. -/
theorem stat_dir_of_route (hw : w.Sound) {q : Path} {x : Bytes} (hx : EntryName x)
    (hq : q.bytes ≠ []) (hslash : endsWithSlash q.bytes = false) {L : Loc} {slash : Bool}
    (hroute : w.resolveParent (q.append x).bytes = .ok (.live L, .name x slash)) :
    ∃ n, w.stat q.bytes = .ok n ∧ n.isDir = true := by
  obtain ⟨s, cs, r, hs, hcs, hpre, -⟩ := resolveParent_name hw hroute
  have hcq : components q.bytes = cs := by
    rw [Path.components_append_name q hx] at hcs
    exact List.append_inj_left' hcs rfl
  -- the walk there asked for a directory, which only checks where it ends
  rw [walk_mustDir true false 0 s cs rfl] at hpre
  obtain ⟨r', hwalk, hcheck⟩ := bind_eq_ok.mp hpre
  unfold dirCheck at hcheck
  split at hcheck
  · rename_i n hn
    split at hcheck
    · rename_i hd
      refine ⟨n, ?_, hd⟩
      show (w.resolve q.bytes true false).bind w.nodeOf = _
      unfold resolve
      rw [start_of_append_name hx hq hs, hslash, hcq]
      show ((w.walk false true false 0 s cs).bind _).bind _ = _
      rw [hwalk]
      exact nodeOf_eq_ok.mpr hn
    · cases hcheck
  · cases hcheck

/-- `mkdir` along a route to a name its directory lacks makes an empty directory of the user
there, bits above `0o1777` dropped, when the directory is the user's or the system's and lets
entries be made. -/
theorem mkdir_of_route {p : Bytes} {L : Loc} {x : Bytes} {slash : Bool} {m : Nat} {o : Owner}
    {es : List (Bytes × Node)} (hroute : w.resolveParent p = .ok (.live L, .name x slash))
    (hL : w.root.get? L = some (.dir m o es)) (ho : o = .user ∨ o = .system)
    (hperm : permits m o changeBits = true) (hx : es.lookup x = none) (hlen : x.length ≤ nameMax)
    (mode : Nat) : w.mkdir p mode = .ok (w.add L x (.dir (mode % 1024) .user [])) := by
  have hl : ¬nameMax < x.length := by omega
  rcases ho with rfl | rfl <;>
    simp [mkdir, hroute, slot, hL, hx, hl, mayCreate, allows, inRegistry, ownerAt, nodeAt, hperm,
      locOf, bind, Except.bind, pure, Except.pure]

theorem mkdir_of_route_found {p : Bytes} {L loc : Loc} {x : Bytes} {slash : Bool} {n : Node}
    (hroute : w.resolveParent p = .ok (.live L, .name x slash))
    (hl : w.lookup (.live L) x = .ok (loc, n)) (mode : Nat) : w.mkdir p mode = .error .alreadyExists := by
  simp [mkdir, hroute, slot_of_lookup_ok hl, bind, Except.bind, throw, throwThe, MonadExceptOf.throw]

theorem get?_add_self {D : Loc} {d : Node} {y : Bytes} (n : Node) (hD : w.root.get? D = some d)
    (hd : d.isDir = true) (hy : d.child? y = none) : (w.add D y n).root.get? (D ++ [y]) = some n := by
  have hD' : (w.add D y n).root.get? D = some (Node.insert y n d) := by
    simp [add, modify, Node.get?_modifyAt_self, hD]
  rw [Node.get?_snoc hD', Node.child?_insert_self n hd hy]

theorem addDirs_snoc (w : World) (L : Loc) (m : Nat) (xs : List Bytes) (y : Bytes) :
    w.addDirs L m (xs ++ [y]) = (w.addDirs L m xs).add (L ++ xs) y (.dir m .user []) := by
  induction xs generalizing w L with
  | nil => simp [addDirs]
  | cons x xs ih =>
    rw [List.cons_append, addDirs, addDirs, ih]
    simp

/-- How a world stands once the directories `made` were made below `L` for the path `p`:
it is sound, `p` is reached along a route that ends at the last directory made, and that one
is empty. -/
structure MadeBelow (W : World) (p : Path) (L : Loc) (made : List Bytes) (m : Nat) : Prop where
  sound : W.Sound
  route : ∃ Lq c, Lq ++ [c] = L ++ made ∧ c.length ≤ nameMax ∧
    W.resolveParent p.bytes = .ok (.live Lq, .name c false)
  last : W.root.get? (L ++ made) = some (.dir m .user [])

theorem MadeBelow.first (hw : w.Sound) {q : Path} {L : Loc} {x : Bytes}
    (hroute : w.resolveParent q.bytes = .ok (.live L, .name x false)) {d : Node}
    (hL : w.root.get? L = some d) (hd : d.isDir = true) (hx : d.child? x = none)
    (hlen : x.length ≤ nameMax) (m : Nat) :
    MadeBelow (w.add L x (.dir m .user [])) q L [x] m :=
  have he := add_extends (.dir m .user []) hL hx
  ⟨he.sound hw, ⟨L, x, rfl, hlen, he.resolveParent hw hroute⟩, get?_add_self _ hL hd hx⟩

/-- **One more directory.** Below the last directory made, which grants the user write and
search, `mkdir` of one more plain name that fits makes it, and the chain goes on. -/
theorem MadeBelow.next {W : World} {p : Path} {L : Loc} {made : List Bytes} {mode : Nat}
    (h : MadeBelow W p L made (mode % 1024)) (hperm : permits (mode % 1024) .user changeBits = true)
    {y : Bytes} (hy : PlainName y) (hylen : y.length ≤ nameMax) (hlen : (p.append y).len < pathMax) :
    W.mkdir (p.append y).bytes mode = .ok (W.add (L ++ made) y (.dir (mode % 1024) .user [])) ∧
      MadeBelow (W.add (L ++ made) y (.dir (mode % 1024) .user [])) (p.append y) L (made ++ [y])
        (mode % 1024) := by
  obtain ⟨Lq, c, hLc, hc, hroute⟩ := h.route
  have hl : W.lookup (.live Lq) c = .ok (L ++ made, .dir (mode % 1024) .user []) := by
    rw [← hLc]
    exact lookup_of_get? (hLc ▸ h.last) hc
  have hroute' : W.resolveParent (p.append y).bytes = .ok (.live (L ++ made), .name y false) :=
    resolveParent_append_name h.sound hroute hl (permits_search_of_change hperm) hy.1 hy.2 hlen
  have hmk := mkdir_of_route hroute' h.last (.inl rfl) hperm rfl hylen mode
  have he := mkdir_extends hmk
  refine ⟨hmk, he.sound h.sound, ⟨L ++ made, y, by simp, hylen, he.resolveParent h.sound hroute'⟩, ?_⟩
  rw [← List.append_assoc]
  exact get?_add_self _ h.last rfl rfl

end World

/-! ## Recursive `mkdir`, one level -/

namespace Handle

variable {w : World} {p : Path}

theorem look_of_missing {e : Errno} (h : w.lstat p.bytes = .error e) (hm : e.meansMissing = true) :
    look w p = .ok .missing := by
  simp [look, h, hm]

/-- A `mkdir` where a directory, or a link to one, is found succeeds only when permissive, and
changes nothing. -/
theorem mkdirTree_of_existing {n : Node} (hl : w.lstat p.bytes = .ok n)
    (hn : n.isDir = true ∨ Kind.ofNode n = .symlink ∧ ∃ n', w.stat p.bytes = .ok n' ∧ n'.isDir = true)
    (mode : Mode) (flags : Flags) :
    mkdirTree p mode flags w =
      (if flags.permissive then .ok () else .error (.alreadyExists "mkdir" p), w) := by
  unfold mkdirTree
  rw [mkdir]
  rcases hn with hd | ⟨hk, n', hs, hd'⟩
  · obtain ⟨m, o, es, rfl⟩ := Node.isDir_iff.mp hd
    cases flags.permissive <;> simp [classify, new, look, hl, Kind.ofNode]
  · cases flags.permissive <;> simp [classify, new, look, hl, hk, linksToDir, hs, hd']

/-- A `mkdir` where something blocks a directory fails with `AlreadyExists` and changes
nothing. -/
theorem mkdirTree_of_blocked (hb : w.Blocks p.bytes) (mode : Mode) (flags : Flags) :
    mkdirTree p mode flags w = (.error (.alreadyExists "mkdir" p), w) := by
  obtain ⟨n, hl, hnd, hlink⟩ := hb
  unfold mkdirTree
  rw [mkdir]
  cases n with
  | dir => cases hnd
  | link _ | magic _ =>
    cases flags.permissive
    · simp [classify, new, look, hl, Kind.ofNode]
    · rcases hlink rfl with ⟨n', hs, hd⟩ | ⟨e, hs, hm⟩
      · simp [classify, new, look, hl, Kind.ofNode, linksToDir, hs, hd]
      · simp [classify, new, look, hl, Kind.ofNode, linksToDir, hs, hm]
  | _ => simp [classify, new, look, hl, Kind.ofNode]

/-- A `mkdir` of a missing path without a directory part to make first calls `mkdir` once. -/
theorem mkdirTree_of_missing_top (hl : look w p = .ok .missing)
    {flags : Flags} (htop : flags.recursive = false ∨ p.dirname.isEmpty = true) (mode : Mode) :
    mkdirTree p mode flags w =
      match w.mkdir p.bytes mode.bits with
      | .ok w' => (.ok (), w')
      | .error e => (.error (.system "mkdir" p (.ofErrno e)), w) := by
  have hno : ¬(flags.recursive && !p.dirname.isEmpty) = true := by
    rcases htop with h | h <;> simp [h]
  -- nothing is made before
  have hnone : (if _hp : (flags.recursive && !p.dirname.isEmpty) = true then
      (((⟨p.dirname, none⟩ : Handle).mkdir mode (flags.withPermissive true) w).result,
        ((⟨p.dirname, none⟩ : Handle).mkdir mode (flags.withPermissive true) w).world)
      else (Except.ok (), w)) = (.ok (), w) := dif_neg hno
  unfold mkdirTree
  rw [mkdir]
  simp only [classify, new, hl]
  split
  · rename_i e w' hX
    cases hnone.symm.trans hX
  · rename_i w' hX
    cases hnone.symm.trans hX
    cases w.mkdir p.bytes mode.bits <;> rfl

/-- **One level of recursion.** A recursive `mkdir` of a missing path with a directory part makes
the directory part first, tolerantly, and then the path, unless the first failed. -/
theorem mkdirTree_of_missing_below (hl : look w p = .ok .missing) {flags : Flags}
    (hrec : flags.recursive = true) (hne : p.dirname.isEmpty = false) {mode : Mode}
    {r : Except TreeError Unit} {w' : World}
    (hbefore : mkdirTree p.dirname mode (flags.withPermissive true) w = (r, w')) :
    mkdirTree p mode flags w =
      match r with
      | .error e => (.error e, w')
      | .ok () =>
        match w'.mkdir p.bytes mode.bits with
        | .ok w'' => (.ok (), w'')
        | .error e => (.error (.system "mkdir" p (.ofErrno e)), w') := by
  have hyes : (flags.recursive && !p.dirname.isEmpty) = true := by simp [hrec, hne]
  -- the directory part is made first
  have hfirst : (if _hp : (flags.recursive && !p.dirname.isEmpty) = true then
      (((⟨p.dirname, none⟩ : Handle).mkdir mode (flags.withPermissive true) w).result,
        ((⟨p.dirname, none⟩ : Handle).mkdir mode (flags.withPermissive true) w).world)
      else (Except.ok (), w)) = (r, w') := by
    rw [dif_pos hyes]
    exact hbefore
  unfold mkdirTree
  rw [mkdir]
  simp only [classify, new, hl]
  split
  · rename_i e w₀ hX
    cases hfirst.symm.trans hX
    rfl
  · rename_i w₀ hX
    cases hfirst.symm.trans hX
    cases w'.mkdir p.bytes mode.bits <;> rfl

/-! ## Recursive `mkdir` of a spelled path -/

open DirTree.Path World

variable {B : Path}

theorem mkdirTree_of_missing_snoc {ns : List Bytes} (hne : ns ≠ []) {y : Bytes}
    (hn : ∀ n ∈ ns ++ [y], EntryName n) (hl : look w (B.appendAll (ns ++ [y])) = .ok .missing)
    {flags : Flags} (hrec : flags.recursive = true) {mode : Mode} {r : Except TreeError Unit}
    {w' : World} (hbefore : mkdirTree (B.appendAll ns) mode (flags.withPermissive true) w = (r, w')) :
    mkdirTree (B.appendAll (ns ++ [y])) mode flags w =
      match r with
      | .error e => (.error e, w')
      | .ok () =>
        match w'.mkdir (B.appendAll (ns ++ [y])).bytes mode.bits with
        | .ok w'' => (.ok (), w'')
        | .error e => (.error (.system "mkdir" (B.appendAll (ns ++ [y])) (.ofErrno e)), w') := by
  have hdir := dirname_appendAll_snoc B hne hn
  have hns : ∀ n ∈ ns, EntryName n := fun n h => hn n (List.mem_append_left _ h)
  have hne' : (B.appendAll (ns ++ [y])).dirname.isEmpty = false := by
    rw [hdir]
    exact Path.isEmpty_of_ne (appendAll_ends_in_name B hne hns).1
  have hbefore' : mkdirTree (B.appendAll (ns ++ [y])).dirname mode (flags.withPermissive true) w =
      (r, w') := by
    rw [hdir]
    exact hbefore
  -- the two sides' matches agree once the directory part's result is known
  cases r <;> exact mkdirTree_of_missing_below hl hrec hne' hbefore'

/-- **A directory that is there.** A `mkdir` of a spelled path that names a directory, through
links, changes nothing, and succeeds only when permissive. -/
theorem mkdirTree_of_dir (hw : w.Sound) {ns : List Bytes} (hsp : Spelled B ns) (hne : ns ≠ [])
    {n : Node} (hs : w.stat (B.appendAll ns).bytes = .ok n) (hd : n.isDir = true) (mode : Mode)
    (flags : Flags) :
    mkdirTree (B.appendAll ns) mode flags w =
      (if flags.permissive then .ok () else .error (.alreadyExists "mkdir" (B.appendAll ns)), w) := by
  obtain ⟨cs, c, rfl⟩ := (List.eq_nil_or_concat ns).resolve_left hne
  rw [List.concat_eq_append] at hsp hs ⊢
  obtain ⟨hc, hdot, hdd, hslash⟩ := hsp.walkable
  obtain ⟨sp, hres, -⟩ := bind_eq_ok.mp hs
  obtain ⟨s, hstart, -⟩ := bind_eq_ok.mp hres
  obtain ⟨n₁, hl, hk | rfl⟩ := lstat_of_stat hw hstart hc hdot hdd hslash hs
  · exact mkdirTree_of_existing hl (.inr ⟨hk, n, hs, hd⟩) mode flags
  · exact mkdirTree_of_existing hl (.inl hd) mode flags

/-- **The first missing name is made.** When the directory part of a spelled path resolves to a
directory `L` of the user or the system that lacks the last name and lets entries be made, a
recursive `mkdir` leaves what is before alone and makes the last name in `L`. -/
theorem mkdirTree_first_missing (hw : w.Sound) {ns : List Bytes} {x : Bytes}
    (hsp : Spelled B (ns ++ [x])) {L : Loc}
    (hroute : w.resolveParent (B.appendAll (ns ++ [x])).bytes = .ok (.live L, .name x false))
    {m₀ : Nat} {o₀ : Owner} {es₀ : List (Bytes × Node)} (hL : w.root.get? L = some (.dir m₀ o₀ es₀))
    (ho₀ : o₀ = .user ∨ o₀ = .system) (hperm₀ : permits m₀ o₀ changeBits = true)
    (hmiss : es₀.lookup x = none) (hxlen : x.length ≤ nameMax) (mode : Mode) {flags : Flags}
    (hrec : flags.recursive = true) :
    mkdirTree (B.appendAll (ns ++ [x])) mode flags w =
      (.ok (), w.add L x (.dir (mode.bits % 1024) .user [])) := by
  have hmk := mkdir_of_route hroute hL ho₀ hperm₀ hmiss hxlen mode.bits
  have hmissing : look w (B.appendAll (ns ++ [x])) = .ok .missing :=
    look_of_missing (lstat_of_route_missing hw hroute (lookup_of_missing hL hmiss hxlen)) rfl
  have hx : EntryName x := hsp.entry x (by simp)
  rcases List.eq_nil_or_concat ns with rfl | ⟨cs, c, rfl⟩
  · -- the name stands right after the start, and nothing is made before it
    have htop : (B.appendAll ([] ++ [x])).dirname.isEmpty = true := by
      rw [List.nil_append, appendAll_cons, appendAll_nil, dirname_append_name_of_base hsp.base hx]
      rfl
    rw [mkdirTree_of_missing_top hmissing (.inr htop), hmk]
  · -- the directory before it is there, and making it tolerantly leaves it alone
    rw [List.concat_eq_append] at hsp hroute hmk hmissing ⊢
    have hq : Spelled B (cs ++ [c]) := hsp.left
    obtain ⟨hqne, hqslash⟩ := appendAll_ends_in_name B (by simp) hq.entry
    rw [appendAll_snoc] at hroute
    obtain ⟨n, hs, hd⟩ := stat_dir_of_route hw hx hqne hqslash hroute
    have hexist := mkdirTree_of_dir hw hq (by simp) hs hd mode (flags.withPermissive true)
    have htol : (flags.withPermissive true).permissive = true := rfl
    rw [if_pos htol] at hexist
    rw [mkdirTree_of_missing_snoc (by simp) hsp.entry hmissing hrec hexist, hmk]

/-- **Every missing name is made.** Below the first missing name `x` of a spelled path, whose
directory part resolves to a directory `L` of the user or the system that lets entries be made,
a recursive `mkdir` makes `x` in `L` and each later name inside the one before, when the names
and the path fit and the mode lets the user make entries in the directories it makes; afterwards
the path is reached along a route to the last one. -/
theorem mkdirTree_makes_missing (hw : w.Sound) {ns : List Bytes} {x : Bytes} {L : Loc}
    (hroute : w.resolveParent (B.appendAll (ns ++ [x])).bytes = .ok (.live L, .name x false))
    {m₀ : Nat} {o₀ : Owner} {es₀ : List (Bytes × Node)} (hL : w.root.get? L = some (.dir m₀ o₀ es₀))
    (ho₀ : o₀ = .user ∨ o₀ = .system) (hperm₀ : permits m₀ o₀ changeBits = true)
    (hmiss : es₀.lookup x = none) (mode : Mode) :
    ∀ xs : List Bytes, Spelled B (ns ++ x :: xs) → (∀ y ∈ x :: xs, y.length ≤ nameMax) →
      (B.appendAll (ns ++ x :: xs)).len < pathMax →
      (xs ≠ [] → permits (mode.bits % 1024) .user changeBits = true) →
      ∀ flags : Flags, flags.recursive = true →
        mkdirTree (B.appendAll (ns ++ x :: xs)) mode flags w =
            (.ok (), w.addDirs L (mode.bits % 1024) (x :: xs)) ∧
          MadeBelow (w.addDirs L (mode.bits % 1024) (x :: xs)) (B.appendAll (ns ++ x :: xs)) L
            (x :: xs) (mode.bits % 1024) := by
  intro xs
  -- by induction from the end of the names, as the recursion runs
  obtain ⟨rs, rfl⟩ : ∃ rs, xs = rs.reverse := ⟨xs.reverse, (List.reverse_reverse xs).symm⟩
  induction rs with
  | nil =>
    intro hsp hfit _ _ flags hrec
    have hxlen : x.length ≤ nameMax := hfit x List.mem_cons_self
    exact ⟨mkdirTree_first_missing hw hsp hroute hL ho₀ hperm₀ hmiss hxlen mode hrec,
      MadeBelow.first hw hroute hL rfl hmiss hxlen _⟩
  | cons y rs ih =>
    intro hsp hfit hlen hmode flags hrec
    rw [List.reverse_cons] at hsp hfit hlen hmode ⊢
    have hnames : ns ++ x :: (rs.reverse ++ [y]) = (ns ++ x :: rs.reverse) ++ [y] := by simp
    rw [hnames] at hsp hlen ⊢
    have hprev : Spelled B (ns ++ x :: rs.reverse) := hsp.left
    have hy : PlainName y := hsp.plain_last
    have hylen : y.length ≤ nameMax := hfit y (by simp)
    have hperm : permits (mode.bits % 1024) .user changeBits = true := hmode (by simp)
    have hlen' : (B.appendAll (ns ++ x :: rs.reverse)).len < pathMax :=
      lt_of_le_of_lt (Path.prefix_append_name _ hy.1).length_le (by rw [← appendAll_snoc]; exact hlen)
    -- the names before `y` are made first, tolerantly
    obtain ⟨hbefore, hmade⟩ := ih hprev
      (fun z hz => hfit z (List.mem_cons.mpr ((List.mem_cons.mp hz).imp_right (List.mem_append_left _))))
      hlen' (fun _ => hperm) (flags.withPermissive true) hrec
    obtain ⟨hmk, hmade'⟩ := hmade.next hperm hy hylen (by rw [← appendAll_snoc]; exact hlen)
    rw [← appendAll_snoc] at hmk hmade'
    -- `y` itself is missing: the walk stops at the missing `x`
    have hmissing : look w (B.appendAll (ns ++ x :: rs.reverse ++ [y])) = .ok .missing := by
      obtain ⟨s, hs, he⟩ := walk_of_route_missing hw hroute (lookup_of_missing hL hmiss
        (hfit x List.mem_cons_self))
      have hsplit : ns ++ x :: rs.reverse ++ [y] = (ns ++ [x]) ++ (rs.reverse ++ [y]) := by simp
      rw [hsplit] at hsp hlen ⊢
      rw [appendAll_append] at hlen ⊢
      exact look_of_missing (lstat_below_error hw hs he (by simp) hsp.right hlen) rfl
    rw [mkdirTree_of_missing_snoc (by simp) hsp.entry hmissing hrec hbefore]
    simp only [hmk]
    rw [← List.cons_append, addDirs_snoc]
    exact ⟨rfl, hmade'⟩

/-- **Below something that blocks a directory.** A `mkdir` of a spelled path where something
blocks a directory, or, recursive, of any spelled path below it, fails with `AlreadyExists`
naming it, and changes nothing. -/
theorem mkdirTree_below_blocked (hw : w.Sound) {ns : List Bytes} (hsp₀ : Spelled B ns)
    (hne : ns ≠ []) (hb : w.Blocks (B.appendAll ns).bytes) (mode : Mode) :
    ∀ ys : List Bytes, Spelled B (ns ++ ys) → (B.appendAll (ns ++ ys)).len < pathMax →
      ∀ flags : Flags, (ys ≠ [] → flags.recursive = true) →
        mkdirTree (B.appendAll (ns ++ ys)) mode flags w =
          (.error (.alreadyExists "mkdir" (B.appendAll ns)), w) := by
  -- asking for a directory there fails as missing, and so does every path below
  obtain ⟨s, e, hs, he, hm⟩ : ∃ s e, w.start (B.appendAll ns).bytes = .ok s ∧
      w.walk false true true 0 s (components (B.appendAll ns).bytes) = .error e ∧
      e.meansMissing = true := by
    obtain ⟨cs, c, rfl⟩ := (List.eq_nil_or_concat ns).resolve_left hne
    rw [List.concat_eq_append] at hsp₀ hb ⊢
    obtain ⟨hc, hdot, hdd, hslash⟩ := hsp₀.walkable
    obtain ⟨n, hl, -⟩ := id hb
    obtain ⟨sp, hres, -⟩ := bind_eq_ok.mp hl
    obtain ⟨s, hstart, -⟩ := bind_eq_ok.mp hres
    obtain ⟨e, hres', hm⟩ := resolve_dir_of_blocks hw hstart hc hdot hdd hslash hb
    have hwalk := walk_of_resolve_error hstart hres'
    rw [hslash] at hwalk
    exact ⟨s, e, hstart, hwalk, hm⟩
  intro ys
  obtain ⟨rs, rfl⟩ : ∃ rs, ys = rs.reverse := ⟨ys.reverse, (List.reverse_reverse ys).symm⟩
  induction rs with
  | nil =>
    intro _ _ flags _
    rw [List.reverse_nil, List.append_nil]
    exact mkdirTree_of_blocked hb mode flags
  | cons y rs ih =>
    intro hsp hlen flags hrec
    have hrec' : flags.recursive = true := hrec (by simp)
    rw [List.reverse_cons, ← List.append_assoc] at hsp hlen ⊢
    have hprev : Spelled B (ns ++ rs.reverse) := hsp.left
    have hlen' : (B.appendAll (ns ++ rs.reverse)).len < pathMax :=
      lt_of_le_of_lt (Path.prefix_append_name _ (hsp.entry y (by simp))).length_le
        (by rw [← appendAll_snoc]; exact hlen)
    have hmissing : look w (B.appendAll (ns ++ rs.reverse ++ [y])) = .ok .missing := by
      rw [List.append_assoc] at hsp hlen ⊢
      rw [appendAll_append] at hlen ⊢
      exact look_of_missing (lstat_below_error hw hs he (by simp) hsp.right hlen) hm
    -- the path before `y` fails first, and the failure is passed on
    rw [mkdirTree_of_missing_snoc (by simp [hne]) hsp.entry hmissing hrec'
      (ih hprev hlen' (flags.withPermissive true) (fun _ => hrec'))]

/-- **`mkdir` with parents makes exactly what is missing.** In a sound world, with any mode and
flags, for paths spelled from a start and plain names:
* when the directory part of the path's first missing name `x` resolves to a directory `L` of the
  user or the system that lets entries be made, the names and the path fit, and the mode lets the
  user make entries in what is made whenever more than one directory is to be made, a recursive
  `mkdir` succeeds and adds to the world exactly the chain of new empty directories from `x` on,
  `x` in `L` and each later name inside the one before, each of the mode with the bits above
  `0o1777` dropped;
* when the path names a directory, through links, `mkdir` changes nothing, and succeeds exactly
  when permissive;
* when something blocks a directory at a part of the path, a `mkdir` of that part, or a recursive
  one of any path below it, fails with `AlreadyExists` naming that part, and changes nothing. -/
theorem mkdirTree_parents_complete (hw : w.Sound) (mode : Mode) (flags : Flags) :
    (∀ (B : Path) (ns xs : List Bytes) (x : Bytes) (L : Loc) (m₀ : Nat) (o₀ : Owner)
        (es₀ : List (Bytes × Node)), Spelled B (ns ++ x :: xs) →
      w.resolveParent (B.appendAll (ns ++ [x])).bytes = .ok (.live L, .name x false) →
      w.root.get? L = some (.dir m₀ o₀ es₀) → (o₀ = .user ∨ o₀ = .system) →
      permits m₀ o₀ changeBits = true → es₀.lookup x = none →
      (∀ y ∈ x :: xs, y.length ≤ nameMax) → (B.appendAll (ns ++ x :: xs)).len < pathMax →
      (xs ≠ [] → permits (mode.bits % 1024) .user changeBits = true) → flags.recursive = true →
      mkdirTree (B.appendAll (ns ++ x :: xs)) mode flags w =
        (.ok (), w.addDirs L (mode.bits % 1024) (x :: xs))) ∧
    (∀ (B : Path) (ns : List Bytes) (n : Node), Spelled B ns → ns ≠ [] →
      w.stat (B.appendAll ns).bytes = .ok n → n.isDir = true →
      mkdirTree (B.appendAll ns) mode flags w =
        (if flags.permissive then .ok () else .error (.alreadyExists "mkdir" (B.appendAll ns)), w)) ∧
    (∀ (B : Path) (ns ys : List Bytes), Spelled B (ns ++ ys) → ns ≠ [] →
      w.Blocks (B.appendAll ns).bytes → (B.appendAll (ns ++ ys)).len < pathMax →
      (ys ≠ [] → flags.recursive = true) →
      mkdirTree (B.appendAll (ns ++ ys)) mode flags w =
        (.error (.alreadyExists "mkdir" (B.appendAll ns)), w)) := by
  refine ⟨?_, ?_, ?_⟩
  · intro B ns xs x L m₀ o₀ es₀ hsp hroute hL ho₀ hperm₀ hmiss hfit hlen hmode hrec
    exact (mkdirTree_makes_missing hw hroute hL ho₀ hperm₀ hmiss mode xs hsp hfit hlen hmode
      flags hrec).1
  · intro B ns n hsp hne hs hd
    exact mkdirTree_of_dir hw hsp hne hs hd mode flags
  · intro B ns ys hsp hne hb hlen hrec
    exact mkdirTree_below_blocked hw hsp.left hne hb mode ys hsp hlen flags hrec

/-- Making `a/b` with parents in an empty root makes `a` there and `b` in it. -/
theorem mkdirTree_makes_a_and_b :
    (⟨.dir 0o755 .system [], .live []⟩ : World).Sound ∧
      mkdirTree (Path.appendAll ⟨[]⟩ ([] ++ [97] :: [[98]])) ⟨0o755⟩ ⟨false, true⟩
          ⟨.dir 0o755 .system [], .live []⟩ =
        (.ok (), World.addDirs ⟨.dir 0o755 .system [], .live []⟩ [] (0o755 % 1024) [[97], [98]]) :=
  have hw : (⟨.dir 0o755 .system [], .live []⟩ : World).Sound := ⟨⟨_, _, _, rfl⟩, ⟨_, _, _, rfl⟩⟩
  have hroute : World.resolveParent ⟨.dir 0o755 .system [], .live []⟩
      (Path.appendAll ⟨[]⟩ ([] ++ [[97]])).bytes = .ok (.live [], .name [97] false) :=
    World.resolveParent_single rfl rfl rfl rfl rfl
  ⟨hw, (mkdirTree_parents_complete hw ⟨0o755⟩ ⟨false, true⟩).1 ⟨[]⟩ [] [[98]] [97] [] 0o755 .system []
    ⟨.inl rfl, by decide⟩ hroute rfl (.inr rfl) (by decide) rfl (by decide) (by decide)
    (fun _ => by decide) rfl⟩

/-- **A final `/` is not a name of its own.** With parents, making `x/` in an empty root, where
nothing is found, first makes `x`, the directory part of `x/`, and then fails to make `x/`, which
is `x`, now there. -/
theorem mkdirTree_trailing_slash :
    World.lstat ⟨.dir 0o755 .system [], .live []⟩ [120, 47] = .error .noEntry ∧
    mkdirTree ⟨[120, 47]⟩ ⟨0o755⟩ ⟨false, true⟩ ⟨.dir 0o755 .system [], .live []⟩ =
      (.error (.system "mkdir" ⟨[120, 47]⟩ (.ofErrno .alreadyExists)),
        World.add ⟨.dir 0o755 .system [], .live []⟩ [] [120] (.dir 0o755 .user [])) := by
  -- nothing is found at `x/`, nor at `x`, both routes ending at the name `x` of `/`
  have hw : (⟨.dir 0o755 .system [], .live []⟩ : World).Sound := ⟨⟨_, _, _, rfl⟩, ⟨_, _, _, rfl⟩⟩
  have hroute : World.resolveParent ⟨.dir 0o755 .system [], .live []⟩ [120, 47] =
      .ok (.live [], .name [120] true) := World.resolveParent_single rfl rfl rfl rfl rfl
  have hroutex : World.resolveParent ⟨.dir 0o755 .system [], .live []⟩ [120] =
      .ok (.live [], .name [120] false) := World.resolveParent_single rfl rfl rfl rfl rfl
  have hmiss : World.lookup ⟨.dir 0o755 .system [], .live []⟩ (.live []) [120] = .error .noEntry :=
    World.lookup_of_missing rfl rfl (by decide)
  have hl := World.lstat_of_route_missing hw hroute hmiss
  -- `x` is made first, as the directory part
  have hx : mkdirTree (⟨[120, 47]⟩ : Path).dirname ⟨0o755⟩ ((⟨false, true⟩ : Flags).withPermissive true)
      ⟨.dir 0o755 .system [], .live []⟩ =
      (.ok (), World.add ⟨.dir 0o755 .system [], .live []⟩ [] [120] (.dir 0o755 .user [])) := by
    show mkdirTree ⟨[120]⟩ _ _ _ = _
    rw [mkdirTree_of_missing_top (look_of_missing (World.lstat_of_route_missing hw hroutex hmiss) rfl)
      (.inr rfl), World.mkdir_of_route hroutex rfl (.inr rfl) rfl rfl (by decide)]
    rfl
  -- then `x/` again names `x`, which is now there
  have hfound : (World.add ⟨.dir 0o755 .system [], .live []⟩ [] [120] (.dir 0o755 .user [])).mkdir
      [120, 47] 0o755 = .error .alreadyExists :=
    World.mkdir_of_route_found (World.resolveParent_single rfl rfl rfl rfl rfl)
      (World.lookup_of_get? rfl (by decide : [120].length ≤ nameMax)) _
  refine ⟨hl, ?_⟩
  rw [mkdirTree_of_missing_below (look_of_missing hl rfl) rfl rfl hx]
  rw [hfound]

end Handle

end DirTree
