import DirTree.Proofs.Trimming
import DirTree.Proofs.MkdirFrame
import DirTree.Proofs.MkdirParents
import DirTree.Proofs.PathComponents

/-!
# How deep the tree operations recurse

A removal descends only where `lstat` finds a directory, and the entries it descends to, each
looked at afresh when its turn comes, are lower than the directory was: the removals before
them only trimmed the world (`heightAt_append_lt`, `heightAt_le_of_trimmed`). A link is removed
like a file and never entered, whatever it leads to, cycles included. So a removal needs one
level for the path and one for each level of height below it, and more levels change nothing:

    w.heightAt p < fuel  →  (new p).removeWith fuel flags w = (new p).remove flags w

Making a directory recurses on the directory part only, which has one `/` fewer than the path
(`Path.slashes_dirname`), and not at all once the directory part is empty. A `mkdir` allowed to
make directory parts `depth` levels up does all that `mkdir` does once `depth` reaches the
number of `/` bytes of the path (`mkdirWithin_eq_mkdir`).
-/

namespace DirTree

open Bytes

/-! ## The height at a path -/

namespace World

variable {w : World}

/-- The height of what `lstat` finds at a path; where it finds nothing, zero. -/
def heightAt (w : World) (p : Path) : Nat :=
  match w.lstat p.bytes with
  | .ok n => n.height
  | .error _ => 0

theorem heightAt_of_lstat {p : Path} {n : Node} (h : w.lstat p.bytes = .ok n) :
    w.heightAt p = n.height := by
  simp [heightAt, h]

/-- **Nothing grows taller in a trimmed world.** What `lstat` finds at a path in what is left of
a world is no taller than what it found there before: the walk to it went the same way, to a
node that was at least as tall, or to a removed directory, which holds nothing. -/
theorem heightAt_le_of_trimmed {u' u : World} (ht : u'.Trimmed u) (q : Path) :
    u'.heightAt q ≤ u.heightAt q := by
  cases hl : u'.lstat q.bytes with
  | error e => simp [heightAt, hl]
  | ok C =>
    obtain ⟨s', hs', hC⟩ := bind_eq_ok.mp hl
    obtain ⟨s, hs, hcov⟩ := ht.smaller.resolve ht.sound hs'
    have hat := nodeOf_eq_ok.mp hC
    obtain ⟨C', hat', hle⟩ : ∃ C', u.nodeAt s = some C' ∧ C.height ≤ C'.height := by
      cases hcov with
      | refl =>
        cases s' with
        | live l => exact ht.noTaller l C hat
        | gone m o q => exact ⟨C, hat, le_refl _⟩
        | held hd => cases hd <;> exact ⟨C, hat, le_refl _⟩
      | live hl' _ =>
        cases hat
        exact ⟨_, hl', by simp [Node.heightOf]⟩
      | gone _ =>
        cases hat
        exact ⟨_, rfl, le_refl _⟩
    have hl' : u.lstat q.bytes = .ok C' := by
      show (u.resolve q.bytes false false).bind u.nodeOf = _
      rw [hs]
      exact nodeOf_eq_ok.mpr hat'
    rw [heightAt_of_lstat hl, heightAt_of_lstat hl']
    exact hle

theorem heightAt_lt_size (p : Path) : w.heightAt p < w.root.size := by
  have hroot := Node.size_pos w.root
  cases hl : w.lstat p.bytes with
  | error e => simpa [heightAt, hl] using hroot
  | ok n =>
    rw [heightAt_of_lstat hl]
    obtain ⟨s, -, hn⟩ := bind_eq_ok.mp hl
    have hat := nodeOf_eq_ok.mp hn
    cases s with
    | live l => exact lt_of_lt_of_le (Node.height_lt_size n) (Node.size_get?_le hat)
    | gone m o q =>
      cases hat
      simpa [Node.heightOf] using hroot
    | held hd => cases hd <;> (cases hat; simpa [Node.height] using hroot)

theorem bytes_ne_nil_of_start {p : Bytes} {s : Spot} (h : w.start p = .ok s) : p ≠ [] := by
  rintro rfl
  simp [start, pathMax] at h

/-- **The entry of a named directory.** Where a path names the directory at `L` through its
links, `lstat` of a name appended to it finds, if anything, the entry of that name. -/
theorem lstat_append_name (hw : w.Sound) {p : Path} {L : Loc}
    (hres : w.resolve p.bytes true true = .ok (.live L)) {x : Bytes} (hx : EntryName x)
    (hdot : isDotEntry x = false) {n : Node} (h : w.lstat (p.append x).bytes = .ok n) :
    w.root.get? (L ++ [x]) = some n := by
  have hdots : (x == dot) = false ∧ (x == dotdot) = false := by
    simpa [isDotEntry] using hdot
  obtain ⟨sp, hsp, hn⟩ := bind_eq_ok.mp h
  obtain ⟨s, hs, -⟩ := bind_eq_ok.mp hsp
  -- the walk of the path's own components, through every link, ends at `L`
  obtain ⟨s₀, hs₀, hrest⟩ := bind_eq_ok.mp hres
  obtain ⟨r, hr, hspot⟩ := bind_eq_ok.mp hrest
  simp only [Bool.true_or] at hr
  have hspot' : r.spot = .live L := by injection hspot
  rw [start_of_append_name hx (bytes_ne_nil_of_start hs₀) hs, Except.ok.injEq] at hs₀
  subst hs₀
  -- one step more looks the name up in `L`, and stops at the entry without following it
  rw [resolve_split hw hs (Path.components_append_name p hx), hr, Path.endsWithSlash_append_name p hx]
    at hsp
  change ((w.walk false false false r.links r.spot [x]).bind fun r' => Except.ok r'.spot) =
    Except.ok sp at hsp
  rw [hspot'] at hsp
  obtain ⟨r', hlast, hsp'⟩ := bind_eq_ok.mp hsp
  obtain ⟨loc, n₀, hal, hlk⟩ := walk_last_lookup hlast hdots.1 hdots.2
  rw [walk_last_entry hdots.1 hdots.2 hal hlk (.inl rfl)] at hlast
  simp only [Bool.false_and, Bool.false_eq_true, if_false, Except.ok.injEq] at hlast
  subst hlast
  injection hsp' with hsp'
  subst hsp'
  obtain ⟨dloc, d, hL, rfl, -, -, -⟩ := lookup_ok hlk
  cases hL
  exact nodeOf_eq_ok.mp hn

theorem opendir_of_lstat_dir (hw : w.Sound) {p : Bytes} {D : Node} (hl : w.lstat p = .ok D)
    (hd : D.isDir = true) {names : List Bytes} (ho : w.opendir p = .ok names) :
    names = [] ∨ ∃ L, w.resolve p true true = .ok (.live L) ∧ w.root.get? L = some D ∧
      names = D.names := by
  -- the path names `D` through its links too, asked for a directory
  obtain ⟨s, hs, hn⟩ := bind_eq_ok.mp (stat_of_lstat_dir hw hl hd)
  have hat := nodeOf_eq_ok.mp hn
  have hres : w.resolve p true true = .ok s := by
    rw [resolve_mustDir, hs]
    simp [Except.bind, hat, hd]
  unfold opendir at ho
  rw [hres] at ho
  cases hal : w.allows s readBit
  · simp [hal, bind, Except.bind, throw, throwThe, MonadExceptOf.throw] at ho
  cases s with
  | live L =>
    simp only [hal, Bool.not_true, Bool.false_eq_true, if_false, bind, Except.bind, nodeOf, hat,
      pure, Except.pure, Except.ok.injEq] at ho
    exact .inr ⟨L, hres, hat, ho.symm⟩
  | gone m o q =>
    simp only [hal, Bool.not_true, Bool.false_eq_true, if_false, bind, Except.bind, pure,
      Except.pure, Except.ok.injEq] at ho
    exact .inl ho.symm
  | held h => simp [hal, bind, Except.bind, throw, throwThe, MonadExceptOf.throw] at ho

theorem entryName_of_opendir (hw : w.Tidy) {p : Bytes} {D : Node} (hl : w.lstat p = .ok D)
    (hd : D.isDir = true) {names : List Bytes} (ho : w.opendir p = .ok names) :
    ∀ x ∈ names, EntryName x := by
  intro x hx
  rcases opendir_of_lstat_dir hw.sound hl hd ho with rfl | ⟨L, -, hL, rfl⟩
  · cases hx
  · exact hw.named L D hL x hx

/-- **An entry is lower than its directory.** Where `lstat` finds a directory `D` at `p`, a
name that `opendir` lists there, appended to `p`, names an entry of `D`, or nothing. -/
theorem heightAt_append_lt (hw : w.Tidy) {p : Path} {D : Node} (hl : w.lstat p.bytes = .ok D)
    (hd : D.isDir = true) {names : List Bytes} (ho : w.opendir p.bytes = .ok names) {x : Bytes}
    (hx : x ∈ names) (hdot : isDotEntry x = false) : w.heightAt (p.append x) < D.height := by
  rcases opendir_of_lstat_dir hw.sound hl hd ho with rfl | ⟨L, hres, hL, rfl⟩
  · cases hx
  obtain ⟨c, hc⟩ := Node.exists_child?_of_mem_names hx
  cases hl' : w.lstat (p.append x).bytes with
  | error e =>
    have := Node.height_lt_of_child? hc
    simp only [heightAt, hl']
    omega
  | ok n =>
    have hget := lstat_append_name hw.sound hres (hw.named L D hL x hx) hdot hl'
    rw [Node.get?_snoc hL] at hget
    rw [heightAt_of_lstat hl']
    exact Node.height_lt_of_child? hget

/-- **Every entry a removal descends to is lower than its directory was**, whatever the
removals before it took out. -/
theorem heightAt_append_lt_of_trimmed (hw : w.Tidy) {p : Path} {D : Node}
    (hl : w.lstat p.bytes = .ok D) (hd : D.isDir = true) {names : List Bytes}
    (ho : w.opendir p.bytes = .ok names) {x : Bytes} (hx : x ∈ names)
    (hdot : isDotEntry x = false) {u : World} (hu : u.Trimmed w) :
    u.heightAt (p.append x) < D.height :=
  lt_of_le_of_lt (heightAt_le_of_trimmed hu _) (heightAt_append_lt hw hl hd ho hx hdot)

end World

/-! ## Removals need no more levels than the height -/

open World

/-- **Two walks whose visitors agree on every entry are the same walk.** The visitors need only
agree, keep an invariant and leave the child on its path, on the entries the listing names, each
seen through the child handle that knows what `lstat` finds at its path. -/
theorem visitAll_congr {dir : Path} {visit visit' : Visitor Unit} (Inv : World → Prop)
    {names : List Bytes} (hnames : ∀ x ∈ names, EntryName x)
    (hsame : ∀ x ∈ names, isDotEntry x = false → ∀ k u, Inv u →
      Handle.look u (dir.append x) = .ok k →
        visit ⟨dir.append x, some k⟩ x () u = visit' ⟨dir.append x, some k⟩ x () u)
    (hkeep : ∀ x ∈ names, isDotEntry x = false → ∀ k u, Inv u →
      Handle.look u (dir.append x) = .ok k → Inv (visit ⟨dir.append x, some k⟩ x () u).world ∧
        (visit ⟨dir.append x, some k⟩ x () u).child.path = dir.append x) :
    ∀ (rest : List Bytes) (slot : ChildSlot) (u : World), (∀ x ∈ rest, x ∈ names) →
      slot.Based dir → Inv u →
      visitAll dir visit slot (rest.map .ok) () u = visitAll dir visit' slot (rest.map .ok) () u := by
  intro rest
  induction rest with
  | nil => intro _ _ _ _ _; rfl
  | cons x rest ih =>
    intro slot u hsub hs hu
    have hxn := hsub x List.mem_cons_self
    have hsub' : ∀ y ∈ rest, y ∈ names := fun y hy => hsub y (List.mem_cons_of_mem x hy)
    simp only [List.map_cons, visitAll]
    by_cases hdot : isDotEntry x = true
    · rw [if_pos hdot, if_pos hdot]
      exact ih slot u hsub' hs hu
    have hdot' : isDotEntry x = false := by simpa using hdot
    rw [if_neg hdot, if_neg hdot, ChildSlot.enter_eq hs x u]
    cases hl : Handle.look u (dir.append x) with
    | error e => rfl
    | ok k =>
      -- the entry is visited alike, and the walk goes on alike from the world it leaves
      have heq := hsame x hxn hdot' k u hu hl
      obtain ⟨hinv, hchild⟩ := hkeep x hxn hdot' k u hu hl
      dsimp only
      rw [heq] at hinv hchild ⊢
      split
      · rfl
      · have hbased : dir.bytes <+: (visit' ⟨dir.append x, some k⟩ x () u).child.path.bytes := by
          rw [hchild]
          exact Path.prefix_append_name dir (hnames x hxn)
        exact ih _ _ hsub' ⟨hs.1, hbased⟩ hinv

namespace Handle

variable {flags : Flags}

theorem classify_fst {h : Handle} {u : World} (hc : h.Coherent u) :
    (h.classify u).1 = look u h.path := by
  rw [classify_eq hc]
  cases look u h.path <;> rfl

/-- **Only a directory is descended into.** Two levels of a removal that differ only in the
level below agree wherever the handle is not classified as a directory, and where it is, as
soon as emptying it agrees. -/
theorem removeStep_congr {d d' : Option (Handle → World → Done Unit)} {h : Handle} {u : World}
    (hempty : (h.classify u).1 = .ok .directory →
      emptyWith d (h.classify u).2 flags u = emptyWith d' (h.classify u).2 flags u) :
    removeStep d h flags u = removeStep d' h flags u := by
  unfold removeStep
  rcases hcl : h.classify u with ⟨r, h1⟩
  rw [hcl] at hempty
  dsimp only at hempty ⊢
  cases r with
  | error e => rfl
  | ok k =>
    cases k with
    | directory => rw [hempty rfl]
    | _ => rfl

/-- A removal of a path where `lstat` finds no directory never descends, whatever its levels:
a link in particular is removed as it is, and what it leads to is never entered. -/
theorem removeWith_of_not_directory {h : Handle} {u : World} (hc : h.Coherent u)
    (hk : look u h.path ≠ .ok .directory) :
    ∀ fuel, h.removeWith fuel flags u = h.removeWith 0 flags u
  | 0 => rfl
  | _ + 1 => removeStep_congr fun hdir => absurd ((classify_fst hc).symm.trans hdir) hk

/-- **One level more changes nothing** for a removal whose levels exceed the height of what is at
its path. By induction on the levels: a directory is walked alike with either, since each entry
the walk descends to, in the world the removals before it left, is lower than the directory. -/
theorem removeWith_succ (flags : Flags) :
    ∀ (fuel : Nat) (h : Handle) (u : World), u.Tidy → h.Coherent u → u.heightAt h.path < fuel →
      h.removeWith (fuel + 1) flags u = h.removeWith fuel flags u := by
  intro fuel
  induction fuel with
  | zero => exact fun _ _ _ _ hlt => absurd hlt (Nat.not_lt_zero _)
  | succ k ih =>
    intro h u hu hc hlt
    refine removeStep_congr fun hdir => ?_
    -- a directory `D` is at the path, lower than `k + 1`
    obtain ⟨D, hl, hd⟩ := look_directory ((classify_fst hc).symm.trans hdir)
    rw [heightAt_of_lstat hl] at hlt
    have hpath : (h.classify u).2.path = h.path := classify_path h u
    cases hr : flags.recursive
    · rw [emptyWith_of_not_recursive _ _ hr, emptyWith_of_not_recursive _ _ hr]
    rw [emptyWith_some _ _ hr, emptyWith_some _ _ hr, walk, walk, hpath]
    split
    · rfl
    rename_i names ho
    refine visitAll_congr (fun u' => u'.Trimmed u) (entryName_of_opendir hu hl hd ho)
      (fun x hx hdot k' u' hu' hlk => ?_) (fun x hx _ k' u' hu' _ => ?_) names _ u
      (fun _ hx => hx) (by rw [← hpath]; exact ChildSlot.new_based _) (.refl hu.sound)
    · -- the entry is lower than `k`, so the levels below remove it alike
      have hlow := heightAt_append_lt_of_trimmed hu hl hd ho hx hdot hu'
      rw [ih ⟨h.path.append x, some k'⟩ u' (hu'.tidy hu) (coherent_remember ⟨_, none⟩ hlk)
        (by simp only; omega)]
    · exact ⟨(removeWith_trimmed flags _ _ u' hu'.sound).trans hu', removeWith_path _ _ flags u'⟩

/-- **Enough levels.** A removal with more levels than the height of what is at its path does
what it does with any more. -/
theorem removeWith_add {h : Handle} {u : World} (hu : u.Tidy) (hc : h.Coherent u) {fuel : Nat}
    (hlt : u.heightAt h.path < fuel) :
    ∀ extra, h.removeWith (fuel + extra) flags u = h.removeWith fuel flags u
  | 0 => rfl
  | extra + 1 => by
    rw [← Nat.add_assoc, removeWith_succ flags _ h u hu hc (by omega), removeWith_add hu hc hlt extra]

theorem removeWith_eq_remove {h : Handle} {u : World} (hu : u.Tidy) (hc : h.Coherent u)
    {fuel : Nat} (hlt : u.heightAt h.path < fuel) : h.removeWith fuel flags u = h.remove flags u := by
  have hsize : u.heightAt h.path < u.root.size := heightAt_lt_size h.path
  obtain ⟨a, ha⟩ : ∃ a, fuel = u.heightAt h.path + 1 + a := ⟨fuel - (u.heightAt h.path + 1), by omega⟩
  obtain ⟨b, hb⟩ : ∃ b, removalFuel u = u.heightAt h.path + 1 + b :=
    ⟨removalFuel u - (u.heightAt h.path + 1), by simp only [removalFuel]; omega⟩
  rw [remove, hb, ha, removeWith_add hu hc (by omega) a, removeWith_add hu hc (by omega) b]

end Handle

/-! ## Making directories recurses once per `/` -/

namespace Path

def slashes (p : Path) : Nat := p.bytes.count slash

/-- **A directory part has one `/` fewer**: the last one, cut with what follows it. -/
theorem slashes_dirname {p : Path} (h : slash ∈ p.bytes) : p.dirname.slashes + 1 = p.slashes := by
  obtain ⟨a, b, hab, hb⟩ := Bytes.exists_last_slash h
  obtain ⟨bytes⟩ := p
  simp only at hab
  subst hab
  rw [dirname_of_last_slash hb]
  simp [slashes, List.count_append, List.count_eq_zero_of_not_mem hb]

theorem slash_mem_of_dirname {p : Path} (h : p.dirname.isEmpty = false) : slash ∈ p.bytes := by
  by_contra hs
  rw [dirname_of_no_slash hs] at h
  cases h

end Path

namespace Handle

/-- Makes the directory at the handle's path, making directory parts at most `depth` levels up:
with no level left it makes no directory part; otherwise, where nothing is at the path and a
directory part is to be made, it makes that part, tolerantly and within one level less, and
then the path itself as a `mkdir` without recursion does. -/
def mkdirWithin : Nat → Handle → Mode → Flags → World → Done Unit
  | 0, h, mode, flags, w => h.mkdir mode (flags.withRecursive false) w
  | depth + 1, h, mode, flags, w =>
    match h.classify w with
    | (.ok .missing, h1) =>
      if flags.recursive && !h.path.dirname.isEmpty then
        let d := (Handle.new h.path.dirname).mkdirWithin depth mode (flags.withPermissive true) w
        match d.result with
        | .error e => ⟨.error e, h1, d.world⟩
        | .ok () => h1.mkdir mode (flags.withRecursive false) d.world
      else h.mkdir mode flags w
    | _ => h.mkdir mode flags w

variable {h h1 : Handle} {w : World} {mode : Mode} {flags : Flags}

theorem mkdir_of_not_recursing (hrec : (flags.recursive && !h.path.dirname.isEmpty) = false) :
    h.mkdir mode (flags.withRecursive false) w = h.mkdir mode flags w := by
  rw [Handle.mkdir.eq_1 h mode flags, Handle.mkdir.eq_1 h mode (flags.withRecursive false)]
  -- neither makes a directory part: the one by `hrec`, the other by its own flags
  simp only [hrec, Bool.false_eq_true, dite_false]
  rfl

/-- **A recursive `mkdir` where nothing is** makes the directory part tolerantly first, and then
the path as a `mkdir` without recursion, from the handle that remembers that nothing was
there. -/
theorem mkdir_of_missing (hcl : h.classify w = (.ok .missing, h1))
    (hrec : (flags.recursive && !h.path.dirname.isEmpty) = true) :
    h.mkdir mode flags w =
      match ((Handle.new h.path.dirname).mkdir mode (flags.withPermissive true) w).result with
      | .error e =>
        ⟨.error e, h1, ((Handle.new h.path.dirname).mkdir mode (flags.withPermissive true) w).world⟩
      | .ok () => h1.mkdir mode (flags.withRecursive false)
        ((Handle.new h.path.dirname).mkdir mode (flags.withPermissive true) w).world := by
  have hpath : h1.path = h.path := by rw [← classify_path h w, hcl]
  have hk : h1.cached = some .missing := by
    have := classify_remembers h w .missing (by rw [hcl])
    rwa [hcl] at this
  rw [Handle.mkdir.eq_1 h mode flags, hcl]
  simp only [hrec, dite_true]
  cases hd : ((Handle.new h.path.dirname).mkdir mode (flags.withPermissive true) w).result with
  | error e => rfl
  | ok u =>
    -- the plain `mkdir` of the path finds it missing, as remembered, and makes no directory part
    rw [Handle.mkdir.eq_1 h1, classify_cached h1 _ .missing hk, hpath]
    simp [Flags.withRecursive, new]

/-- **`mkdir` recurses at most once per `/`.** Allowed to make directory parts as many levels
up as the path has `/` bytes, or more, `mkdir` does all that it does. By induction on the
levels: each level recurses on the directory part only, which has one `/` fewer. -/
theorem mkdirWithin_eq_mkdir (mode : Mode) :
    ∀ (depth : Nat) (h : Handle) (flags : Flags) (w : World), h.path.slashes ≤ depth →
      h.mkdirWithin depth mode flags w = h.mkdir mode flags w := by
  intro depth
  induction depth with
  | zero =>
    intro h flags w hs
    -- a path without `/` has no directory part to make
    have hno : (flags.recursive && !h.path.dirname.isEmpty) = false := by
      cases he : h.path.dirname.isEmpty
      · have := List.count_pos_iff.mpr (Path.slash_mem_of_dirname he)
        simp only [Path.slashes] at hs
        omega
      · simp
    exact mkdir_of_not_recursing hno
  | succ depth ih =>
    intro h flags w hs
    rw [mkdirWithin]
    rcases hcl : h.classify w with ⟨r, h1⟩
    -- only a path where nothing is recurses
    cases r with
    | error e => rfl
    | ok k =>
      cases k with
      | missing =>
        dsimp only
        by_cases hrec : (flags.recursive && !h.path.dirname.isEmpty) = true
        · -- the directory part has one `/` fewer, so the levels left suffice for it
          have hne : h.path.dirname.isEmpty = false := by
            simp only [Bool.and_eq_true, Bool.not_eq_true'] at hrec
            exact hrec.2
          have hless : h.path.dirname.slashes ≤ depth := by
            have := Path.slashes_dirname (Path.slash_mem_of_dirname hne)
            omega
          rw [if_pos hrec, ih (new h.path.dirname) _ w hless, mkdir_of_missing hcl hrec]
        · rw [if_neg hrec]
      | _ => rfl

end Handle

/-! ## Both recursions end -/

open Handle in
/-- **Both tree recursions end.** In a tidy world, a removal of the path `p` descends only where
`lstat` finds a directory `D`, and each entry it descends to, in whatever world the removals
before it left, is lower than `D`; so a removal with more levels than the height at `p` does what
the removal does. Making the directory at `p` recurses on the directory part only, which has
one `/` fewer, so it goes no more levels up than `p` has `/` bytes. -/
theorem tree_recursions_terminate {w : World} (hw : w.Tidy) (p : Path) (mode : Mode)
    (flags : Flags) :
    (look w p ≠ .ok .directory →
      ∀ fuel, (new p).removeWith fuel flags w = (new p).removeWith 0 flags w) ∧
    (∀ D names, w.lstat p.bytes = .ok D → D.isDir = true → w.opendir p.bytes = .ok names →
      ∀ x ∈ names, isDotEntry x = false → ∀ u : World, u.Trimmed w →
        u.heightAt (p.append x) < D.height) ∧
    (∀ fuel, w.heightAt p < fuel → (new p).removeWith fuel flags w = (new p).remove flags w) ∧
    (slash ∈ p.bytes → p.dirname.slashes + 1 = p.slashes) ∧
    (∀ depth, p.slashes ≤ depth →
      (new p).mkdirWithin depth mode flags w = (new p).mkdir mode flags w) :=
  ⟨removeWith_of_not_directory (coherent_new p w),
    fun _ _ hl hd ho _ hx hdot _ hu => heightAt_append_lt_of_trimmed hw hl hd ho hx hdot hu,
    fun _ hlt => removeWith_eq_remove hw (coherent_new p w) hlt,
    Path.slashes_dirname,
    fun depth hs => mkdirWithin_eq_mkdir mode depth (new p) flags w hs⟩

open Handle in
/-- In the world where `/` holds the user's directory `d`, which holds the file `f`: the world is
tidy, a removal of `d` needs two levels, and making `d`, which has no `/`, makes no directory
part. -/
theorem tree_recursions_terminate_at_dir_with_file :
    World.Tidy ⟨.dir 0o755 .system [([100], .dir 0o755 .user [([102], .file [])])], .live []⟩ ∧
    (new ⟨[100]⟩).removeWith 2 ⟨false, true⟩
        ⟨.dir 0o755 .system [([100], .dir 0o755 .user [([102], .file [])])], .live []⟩ =
      (new ⟨[100]⟩).remove ⟨false, true⟩
        ⟨.dir 0o755 .system [([100], .dir 0o755 .user [([102], .file [])])], .live []⟩ ∧
    (new ⟨[100]⟩).mkdirWithin 0 ⟨0o755⟩ ⟨false, true⟩
        ⟨.dir 0o755 .system [([100], .dir 0o755 .user [([102], .file [])])], .live []⟩ =
      (new ⟨[100]⟩).mkdir ⟨0o755⟩ ⟨false, true⟩
        ⟨.dir 0o755 .system [([100], .dir 0o755 .user [([102], .file [])])], .live []⟩ := by
  have htidy : World.Tidy
      ⟨.dir 0o755 .system [([100], .dir 0o755 .user [([102], .file [])])], .live []⟩ := by
    refine ⟨⟨⟨_, _, _, rfl⟩, ⟨_, _, _, rfl⟩⟩, Node.Named.dir fun e he => ?_⟩
    obtain rfl := List.mem_singleton.mp he
    refine ⟨by decide, Node.Named.dir fun e' he' => ?_⟩
    obtain rfl := List.mem_singleton.mp he'
    exact ⟨by decide, Node.Named.of_not_dir rfl⟩
  -- `lstat` finds `d`, whose height is one
  have hl : World.lstat ⟨.dir 0o755 .system [([100], .dir 0o755 .user [([102], .file [])])], .live []⟩
      [100] = .ok (.dir 0o755 .user [([102], .file [])]) :=
    World.lstat_of_route htidy.sound (World.resolveParent_single rfl rfl rfl rfl rfl)
      (World.lookup_of_get? rfl (by decide)) (by decide)
  have hheight : World.heightAt
      ⟨.dir 0o755 .system [([100], .dir 0o755 .user [([102], .file [])])], .live []⟩ ⟨[100]⟩ < 2 := by
    rw [World.heightAt_of_lstat hl]
    decide
  have hrun := tree_recursions_terminate htidy ⟨[100]⟩ ⟨0o755⟩ ⟨false, true⟩
  exact ⟨htidy, hrun.2.2.1 2 hheight, hrun.2.2.2.2 0 (by decide)⟩

end DirTree
