import DirTree.Demo
import DirTree.Proofs.PathComponents
import DirTree.Proofs.RemoveTree
import DirTree.Proofs.MkdirTolerance

/-!
# The demo's listing of a tree

The demo prints the subtree of a directory as a pre-order listing: one line for each entry, a
directory's line followed at once by the lines of what lies below it, siblings in the order the
directory lists them. A line is two spaces for each level, counted from a starting depth, the
entry's name read as text, and a word for what the entry is; a link is listed as a link and never
followed, so nothing below it is listed.

    listing k (dir m o es)  = the lines of es's descendants, in pre-order     (entryLine)
    entryLine k rel n       = 2·(k + the `/`s in rel) spaces ++ basename rel ++ " (" ++ word ++ ")"

Printing never changes the world, keeps the lines printed before it, and fails only where a call
of the OS fails (`Quiet`, `printTree_quiet`). From a path that names a directory whose subtree
can be listed (`Node.Listable`: each directory lets the user read it, and search it when it has
entries, and lists each name once; each name fits and each path stays within `pathMax`),
printing with enough levels succeeds and prints exactly the listing (`printTree_lists`).

The proof follows the printing: the levels by induction on the fuel, and the entries of one
directory by induction on its listing. An entry's path resolves to the entry because the
directory's own path resolves to the directory, through the same walk
(`resolveParent_append_of_resolve`).
-/

namespace DirTree

open Bytes

/-! ## The listing -/

namespace Demo

/-- The word for what an entry is, the entry itself and not what a link leads to. -/
def kindWord : Node → String
  | .dir .. => "dir"
  | .file _ => "file"
  | .link _ | .magic _ => "link"
  | .fifo | .socket | .device _ => "other"

/-- The line of the entry at `rel` below the listed directory, from the depth `depth`: two spaces
for each level, the entry's own name, and the word for what it is. -/
def entryLine (depth : Nat) (rel : Bytes) (n : Node) : String :=
  String.ofList (List.replicate (2 * (depth + rel.count slash)) ' ') ++
    Utf8.lossy (Path.basename ⟨rel⟩).bytes ++ " (" ++ kindWord n ++ ")"

/-- The lines of a node's subtree from the depth `depth`: one for each entry below it, entries
before what lies below them. -/
def listing (depth : Nat) (n : Node) : List String :=
  n.descendants.map fun e => entryLine depth e.1 e.2

def listingOf (depth : Nat) (es : List (Bytes × Node)) : List String :=
  (Node.descendantsOf es).map fun e => entryLine depth e.1 e.2

theorem listing_dir (depth m : Nat) (o : Owner) (es : List (Bytes × Node)) :
    listing depth (.dir m o es) = listingOf depth es := by
  simp [listing, listingOf, Node.descendants]

theorem listing_of_not_dir {n : Node} (h : n.isDir = false) (depth : Nat) : listing depth n = [] := by
  cases n <;> simp_all [listing, Node.descendants, Node.isDir]

theorem kindWord_eq_label (n : Node) : kindWord n = label (Kind.ofNode n) := by
  cases n <;> rfl

theorem entryLine_name {x : Bytes} (hx : slash ∉ x) (depth : Nat) (c : Node) :
    entryLine depth x c = line depth x (Kind.ofNode c) := by
  simp [entryLine, line, List.count_eq_zero_of_not_mem hx, Path.basename_of_no_slash hx,
    kindWord_eq_label]

theorem entryLine_below {x : Bytes} (hx : slash ∉ x) (depth : Nat) (r : Bytes) (c : Node) :
    entryLine depth (x ++ slash :: r) c = entryLine (depth + 1) r c := by
  have hcount : depth + (x ++ slash :: r).count slash = depth + 1 + r.count slash := by
    simp [List.count_append, List.count_eq_zero_of_not_mem hx]
    omega
  unfold entryLine
  rw [hcount, Path.basename_append_slash]

theorem listingOf_nil (depth : Nat) : listingOf depth [] = [] := by
  simp [listingOf, Node.descendantsOf]

/-- A directory's listing is its first entry's line, that entry's own listing one level deeper,
and the listing of the other entries. -/
theorem listingOf_cons {x : Bytes} (hx : slash ∉ x) (depth : Nat) (c : Node)
    (es : List (Bytes × Node)) :
    listingOf depth ((x, c) :: es) =
      entryLine depth x c :: listing (depth + 1) c ++ listingOf depth es := by
  simp [listingOf, listing, Node.descendantsOf, Function.comp_def, entryLine_below hx]

example : listing 1 (.dir 0o755 .user [([97], .file []), ([115], .link [47, 100]),
    ([98], .dir 0o755 .user [([99], .file [])])]) =
      ["  a (file)", "  s (link)", "  b (dir)", "    c (file)"] := by
  decide

end Demo

/-! ## Trees that can be listed -/

namespace Node

mutual
/-- A tree the demo can list from the path `p`: every directory in it lets the user read it,
and search it when it has entries, and lists each name once; each name is one a directory can
list, fits in `nameMax` and keeps the path below `p` within `pathMax`. -/
def Listable (p : Path) : Node → Prop
  | .dir m o es =>
    permits m o readBit = true ∧ (es ≠ [] → permits m o searchBit = true) ∧
      (es.map (·.1)).Nodup ∧ ListableOf p es
  | _ => True

def ListableOf (p : Path) : List (Bytes × Node) → Prop
  | [] => True
  | (x, c) :: es =>
    (EntryName x ∧ isDotEntry x = false ∧ x.length ≤ nameMax ∧ (p.append x).len < pathMax ∧
      c.Listable (p.append x)) ∧ ListableOf p es
end

end Node

namespace Demo

/-! ## Printing changes nothing and fails only at a call -/

/-- A failed call of the OS that listing a tree makes: opening or reading a directory, or
looking at an entry. -/
def CallFailed (e : TreeError) : Prop :=
  ∃ op p err, op ∈ ["opendir", "readdir", "stat"] ∧ e = .system op p (.ofErrno err)

/-- What printing from the lines `out` in the world `w` left: the same world, the lines before
still first, and a failure only where a call of the OS failed. -/
structure Quiet (out : List String) (w : World) (t : Trail (List String)) : Prop where
  world : t.world = w
  kept : out <+: t.state
  failed : ∀ e, t.result = .error e → CallFailed e

namespace Quiet

variable {out : List String} {w : World}

theorem done (out : List String) (w : World) : Quiet out w ⟨.ok (), out, w⟩ :=
  ⟨rfl, List.prefix_refl _, fun _ h => nomatch h⟩

theorem fail {e : TreeError} (he : CallFailed e) (out : List String) (w : World) :
    Quiet out w ⟨.error e, out, w⟩ :=
  ⟨rfl, List.prefix_refl _, fun _ h => by cases h; exact he⟩

theorem of_append {more : List String} {t : Trail (List String)} (h : Quiet (out ++ more) w t) :
    Quiet out w t :=
  ⟨h.world, (List.prefix_append out more).trans h.kept, h.failed⟩

theorem trans {t t' : Trail (List String)} (h : Quiet out w t) (h' : Quiet t.state t.world t') :
    Quiet out w t' :=
  ⟨h'.world.trans h.world, h.kept.trans h'.kept, h'.failed⟩

end Quiet

theorem look_error_call {w : World} {p : Path} {e : TreeError} (h : Handle.look w p = .error e) :
    CallFailed e := by
  obtain ⟨err, -, -, rfl⟩ := Handle.look_error h
  exact ⟨"stat", p, err, by simp, rfl⟩

theorem classify_error_call {h : Handle} {w : World} {e : TreeError}
    (he : (h.classify w).1 = .error e) : CallFailed e :=
  look_error_call (Handle.classify_error he).2

theorem enter_error_call {slot : ChildSlot} {n : Bytes} {w : World} {e : TreeError}
    (he : (slot.enter n w).1 = .error e) : CallFailed e :=
  classify_error_call (h := Handle.invalidate
    { slot.file with path := (slot.file.path.truncate slot.baseLen).append n }) he

/-- A walk whose visitor is quiet is quiet, over any listing: entering a name fails only when
looking at it fails, and a listing fails only when it cannot be read on. -/
theorem visitAll_quiet {dir : Path} {visit : Visitor (List String)}
    (hv : ∀ child name out w, Quiet out w (visit child name out w).toTrail) :
    ∀ (items : Listing) (slot : ChildSlot) (out : List String) (w : World),
      Quiet out w (visitAll dir visit slot items out w) := by
  intro items
  induction items with
  | nil => exact fun _ out w => Quiet.done out w
  | cons item items ih =>
    intro slot out w
    cases item with
    | error err => exact Quiet.fail ⟨"readdir", dir, err, by simp, rfl⟩ out w
    | ok n =>
      cases hdot : isDotEntry n with
      | true =>
        simp only [visitAll, hdot, if_true]
        exact ih slot out w
      | false =>
        rcases hen : slot.enter n w with ⟨r, slot'⟩
        cases r with
        | error e =>
          simp only [visitAll, hdot, Bool.false_eq_true, if_false, hen]
          exact Quiet.fail (enter_error_call (congrArg Prod.fst hen)) out w
        | ok k =>
          simp only [visitAll, hdot, Bool.false_eq_true, if_false, hen]
          cases hr : (visit slot'.file n out w).result with
          | error e => simpa [hr] using hv slot'.file n out w
          | ok u =>
            simpa [hr] using (hv slot'.file n out w).trans
              (ih { slot' with file := (visit slot'.file n out w).child } _ _)

theorem walk_quiet {visit : Visitor (List String)}
    (hv : ∀ child name out w, Quiet out w (visit child name out w).toTrail) (dir : Handle)
    (out : List String) (w : World) : Quiet out w (walk dir visit out w) := by
  unfold walk
  split
  · next err _ => exact Quiet.fail ⟨"opendir", dir.path, err, by simp, rfl⟩ out w
  · exact visitAll_quiet hv _ _ out w

/-- The visitor of one level of printing, with `fuel` levels below it: it prints the entry's
line and, for a directory, the levels below. -/
def visitEntry (fuel depth : Nat) : Visitor (List String) := fun child name out w =>
  match child.classify w with
  | (.error e, child) => ⟨⟨.error e, out, w⟩, child⟩
  | (.ok k, child) =>
    let out := out ++ [line depth name k]
    if k == .directory then ⟨printTree fuel child (depth + 1) out w, child⟩
    else ⟨⟨.ok (), out, w⟩, child⟩

theorem printTree_succ (fuel : Nat) (dir : Handle) (depth : Nat) (out : List String) (w : World) :
    printTree (fuel + 1) dir depth out w = walk dir (visitEntry fuel depth) out w := rfl

theorem visitEntry_quiet {fuel : Nat}
    (hbelow : ∀ dir depth out w, Quiet out w (printTree fuel dir depth out w)) (depth : Nat) :
    ∀ child name out w, Quiet out w (visitEntry fuel depth child name out w).toTrail := by
  intro child name out w
  unfold visitEntry
  rcases hc : child.classify w with ⟨r, child'⟩
  cases r with
  | error e => exact Quiet.fail (classify_error_call (congrArg Prod.fst hc)) out w
  | ok k =>
    simp only
    split
    · exact (hbelow child' (depth + 1) _ w).of_append
    · exact (Quiet.done _ w).of_append

/-- **Printing is quiet.** With any number of levels, from any handle, depth and lines, in any
world, printing leaves the world as it was and the lines before it in place, and fails only when
a call of the OS fails. -/
theorem printTree_quiet :
    ∀ fuel dir depth out w, Quiet out w (printTree fuel dir depth out w) := by
  intro fuel
  induction fuel with
  | zero => exact fun _ _ out w => Quiet.done out w
  | succ fuel ih =>
    intro dir depth out w
    rw [printTree_succ]
    exact walk_quiet (visitEntry_quiet ih depth) dir out w

/-! ## Printing lists the tree -/

section Lists

variable {w : World}

/-- The entry `x` of the directory at `L`, holding `c`, is reached through the path `d` of the
directory: the name appended to `d` has the directory as its route, and looking it up there finds
the entry. -/
structure Reached (w : World) (d : Path) (L : Loc) (x : Bytes) (c : Node) : Prop where
  route : w.resolveParent (d.append x).bytes = .ok (.live L, .name x false)
  lookup : w.lookup (.live L) x = .ok (L ++ [x], c)

namespace Reached

variable {d : Path} {L : Loc} {x : Bytes} {c : Node}

theorem node (h : Reached w d L x c) : w.root.get? (L ++ [x]) = some c :=
  World.get?_of_lookup_ok h.lookup

theorem look (hw : w.Sound) (h : Reached w d L x c) :
    Handle.look w (d.append x) = .ok (Kind.ofNode c) :=
  Handle.look_of_lstat (World.lstat_of_route hw h.route h.lookup (fun h => nomatch h))

theorem resolve_dir (hw : w.Sound) (h : Reached w d L x c) (hd : c.isDir = true) :
    w.resolve (d.append x).bytes true true = .ok (.live (L ++ [x])) :=
  World.resolve_of_route hw h.route h.lookup (.inr fun hk => by
    rw [Kind.isDir_of_ofNode hk] at hd
    cases hd) (by simp [hd])

end Reached

/-- Each entry of a directory that its path names is reached, when the directory may be
searched, lists each name once, and the name and the path fit. -/
theorem reached_of_mem (hw : w.Sound) {d : Path} {L : Loc} {m : Nat} {o : Owner}
    {es : List (Bytes × Node)} (hres : w.resolve d.bytes true true = .ok (.live L))
    (hL : w.root.get? L = some (.dir m o es)) (hsearch : permits m o searchBit = true)
    (hnd : (es.map (·.1)).Nodup) {x : Bytes} {c : Node} (hmem : (x, c) ∈ es) (hx : EntryName x)
    (hdot : isDotEntry x = false) (hxlen : x.length ≤ nameMax) (hplen : (d.append x).len < pathMax) :
    Reached w d L x c := by
  have hallows : w.allows (.live L) searchBit = true := by
    simp [World.allows, World.nodeAt, hL, hsearch]
  refine ⟨World.resolveParent_append_of_resolve hw hres hallows hx hdot hplen, ?_⟩
  apply World.lookup_of_get? _ hxlen
  rw [Node.get?_snoc hL, Node.child?_dir]
  exact Node.lookup_of_mem hnd hmem

/-- Printing with `fuel` levels lists, from any depth and after any lines, the subtree of every
directory that a handle's path names and that can be listed, when the levels suffice for its
size. -/
def ListsWithin (w : World) (fuel : Nat) : Prop :=
  ∀ (dir : Handle) (L : Loc) (m : Nat) (o : Owner) (es : List (Bytes × Node)) (depth : Nat)
    (out : List String), w.resolve dir.path.bytes true true = .ok (.live L) →
    w.root.get? L = some (.dir m o es) → (Node.dir m o es).Listable dir.path →
    (Node.dir m o es).size ≤ fuel →
    printTree fuel dir depth out w = ⟨.ok (), out ++ listing depth (.dir m o es), w⟩

/-- **One entry.** The visitor prints a reached entry's line and, when it is a directory, its
listing one level deeper, with the levels below. -/
theorem visitEntry_of_reached (hw : w.Sound) {fuel : Nat} (hbelow : ListsWithin w fuel)
    {d : Path} {L : Loc} {x : Bytes} {c : Node} (hr : Reached w d L x c) (hx : slash ∉ x)
    (hc : c.Listable (d.append x)) (hsize : c.size ≤ fuel) (depth : Nat) (out : List String) :
    visitEntry fuel depth ⟨d.append x, some (Kind.ofNode c)⟩ x out w =
      ⟨⟨.ok (), out ++ entryLine depth x c :: listing (depth + 1) c, w⟩,
        ⟨d.append x, some (Kind.ofNode c)⟩⟩ := by
  have hcl := Handle.classify_cached ⟨d.append x, some (Kind.ofNode c)⟩ w (Kind.ofNode c) rfl
  simp only [visitEntry, hcl, entryLine_name hx]
  cases hd : c.isDir with
  | true =>
    -- a directory: the levels below print its listing after its line
    obtain ⟨m, o, es, rfl⟩ := Node.isDir_iff.mp hd
    have hk : Kind.ofNode (.dir m o es) = .directory := rfl
    simp only [hk, beq_self_eq_true, if_true]
    rw [hbelow _ (L ++ [x]) m o es (depth + 1) _ (hr.resolve_dir hw hd) hr.node hc hsize]
    simp
  | false =>
    have hk : (Kind.ofNode c == .directory) = false := by
      simpa [Kind.ofNode_eq_directory] using hd
    simp [hk, listing_of_not_dir hd]

/-- **The entries of a directory, one after the other.** When the levels below list each
subtree, walking the rest of a directory's listing prints the listing of those entries. Each
entry is reached through the directory's path, and the child slot stays based on that path. -/
theorem visitAll_lists (hw : w.Sound) {fuel : Nat} (hbelow : ListsWithin w fuel) {d : Path}
    {L : Loc} {m : Nat} {o : Owner} {es : List (Bytes × Node)}
    (hres : w.resolve d.bytes true true = .ok (.live L)) (hL : w.root.get? L = some (.dir m o es))
    (hsearch : es ≠ [] → permits m o searchBit = true) (hnd : (es.map (·.1)).Nodup)
    (depth : Nat) :
    ∀ (rest : List (Bytes × Node)) (slot : ChildSlot) (out : List String), slot.Based d →
      (∀ e ∈ rest, e ∈ es) → Node.ListableOf d rest → (∀ e ∈ rest, e.2.size ≤ fuel) →
      visitAll d (visitEntry fuel depth) slot ((rest.map (·.1)).map .ok) out w =
        ⟨.ok (), out ++ listingOf depth rest, w⟩
  | [], _, out, _, _, _, _ => by simp [visitAll, listingOf_nil]
  | (x, c) :: rest, slot, out, hs, hsub, hl, hsize => by
    obtain ⟨⟨hx, hdot, hxlen, hplen, hc⟩, hl'⟩ := hl
    have hmem : (x, c) ∈ es := hsub _ List.mem_cons_self
    have hr : Reached w d L x c :=
      reached_of_mem hw hres hL (hsearch (List.ne_nil_of_mem hmem)) hnd hmem hx hdot hxlen hplen
    have hvisit := visitEntry_of_reached hw hbelow hr hx.2.1 hc (hsize _ List.mem_cons_self) depth out
    have hrest := visitAll_lists hw hbelow hres hL hsearch hnd depth rest (slot.enter x w).2
      (out ++ entryLine depth x c :: listing (depth + 1) c) (ChildSlot.enter_based hs hx w)
      (fun e he => hsub e (List.mem_cons_of_mem _ he)) hl'
      (fun e he => hsize e (List.mem_cons_of_mem _ he))
    rw [ChildSlot.enter_eq hs x w, hr.look hw] at hrest
    simp only [List.map_cons]
    rw [visitAll, if_neg (by simp [hdot]), ChildSlot.enter_eq hs x w, hr.look hw]
    simp only [hvisit]
    rw [hrest, listingOf_cons hx.2.1]
    simp

/-- **Every print with enough levels lists.** By induction on the levels: with none left there
is no directory small enough; with one more, the directory is opened, its names are those of
its entries, and each is printed with the levels below (`visitAll_lists`). -/
theorem printTree_lists (hw : w.Sound) : ∀ fuel, ListsWithin w fuel := by
  intro fuel
  induction fuel with
  | zero =>
    intro dir L m o es depth out _ _ _ hsize
    have := Node.size_pos (.dir m o es)
    omega
  | succ fuel ih =>
    intro dir L m o es depth out hres hL hl hsize
    obtain ⟨hread, hsearch, hnd, hl'⟩ := hl
    rw [printTree_succ, walk, World.opendir_of_resolve hres hL hread]
    simp only
    rw [visitAll_lists hw ih hres hL hsearch hnd depth es _ out (ChildSlot.new_based dir)
      (fun e he => he) hl' (fun e he => by
        have := Node.size_lt_of_mem (m := m) (o := o) he
        omega), listing_dir]

end Lists

/-- **The demo prints a tree as a pre-order listing.** Printing changes nothing, keeps the lines
before it and fails only when a call of the OS fails. From a path that names a directory of a
sound world whose subtree can be listed, printing with as many levels as the subtree has nodes
succeeds and prints exactly one line for each entry of the subtree, in pre-order: a directory's
line followed by the lines below it, siblings in listing order, a link listed but not followed,
each line indented by two spaces for each level from the starting depth. -/
theorem printTree_lists_subtree :
    (∀ fuel dir depth out w, Quiet out w (printTree fuel dir depth out w)) ∧
    ∀ (w : World) (d : Path) (L : Loc) (m : Nat) (o : Owner) (es : List (Bytes × Node))
      (fuel depth : Nat) (out : List String), w.Sound →
      w.resolve d.bytes true true = .ok (.live L) → w.root.get? L = some (.dir m o es) →
      (Node.dir m o es).Listable d → (Node.dir m o es).size ≤ fuel →
      printTree fuel (Handle.new d) depth out w = ⟨.ok (), out ++ listing depth (.dir m o es), w⟩ :=
  ⟨printTree_quiet, fun _ d L m o es fuel depth out hw hres hL hl hsize =>
    printTree_lists hw fuel (Handle.new d) L m o es depth out hres hL hl hsize⟩

/-- The directory `/d`, holding a file `a`, a link `s` back to `/d` and a directory `b` with a
file `c`, printed from depth 1 with as many levels as the whole tree has nodes. -/
theorem printTree_lists_dir_with_link_back :
    Node.Listable ⟨[47, 100]⟩ (.dir 0o755 .user [([97], .file []), ([115], .link [47, 100]),
      ([98], .dir 0o755 .user [([99], .file [])])]) ∧
    printTree (Node.dir 0o755 .system [([100], .dir 0o755 .user [([97], .file []),
        ([115], .link [47, 100]), ([98], .dir 0o755 .user [([99], .file [])])])]).size
      (Handle.new ⟨[47, 100]⟩) 1 []
      ⟨.dir 0o755 .system [([100], .dir 0o755 .user [([97], .file []), ([115], .link [47, 100]),
        ([98], .dir 0o755 .user [([99], .file [])])])], .live []⟩ =
      ⟨.ok (), listing 1 (.dir 0o755 .user [([97], .file []), ([115], .link [47, 100]),
          ([98], .dir 0o755 .user [([99], .file [])])]),
        ⟨.dir 0o755 .system [([100], .dir 0o755 .user [([97], .file []), ([115], .link [47, 100]),
          ([98], .dir 0o755 .user [([99], .file [])])])], .live []⟩⟩ :=
  have hl : Node.Listable ⟨[47, 100]⟩ (.dir 0o755 .user [([97], .file []),
      ([115], .link [47, 100]), ([98], .dir 0o755 .user [([99], .file [])])]) := by
    simp only [Node.Listable, Node.ListableOf]
    decide
  ⟨hl, by
    have hw : (⟨.dir 0o755 .system [([100], .dir 0o755 .user [([97], .file []),
        ([115], .link [47, 100]), ([98], .dir 0o755 .user [([99], .file [])])])], .live []⟩ :
        World).Sound := ⟨⟨_, _, _, rfl⟩, ⟨_, _, _, rfl⟩⟩
    refine printTree_lists_subtree.2 _ ⟨[47, 100]⟩ [[100]] _ _ _ _ 1 [] hw ?_ rfl hl (by decide)
    -- `/d` names the entry `d` of `/`
    have hroute : World.resolveParent ⟨.dir 0o755 .system [([100], .dir 0o755 .user [([97], .file []),
        ([115], .link [47, 100]), ([98], .dir 0o755 .user [([99], .file [])])])], .live []⟩
        [47, 100] = .ok (.live [], .name [100] false) :=
      World.resolveParent_single rfl rfl rfl rfl rfl
    exact World.resolve_of_route hw hroute (World.lookup_of_get? rfl (by decide)) (.inr (by decide))
      (by decide)⟩

end Demo

end DirTree
