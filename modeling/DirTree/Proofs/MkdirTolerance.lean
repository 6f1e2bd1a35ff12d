import DirTree.Proofs.MkdirParents

/-!
# What the permissive flag of `mkdir` changes

The permissive flag is read only where `mkdir` has classified its own path and found something
there; the levels above are made tolerantly whatever the flag. So two calls that differ only in
the flag leave the same world, and their answers differ only where the path itself is a directory
or a link:

    lstat p is neither a directory nor a link     →  same answer
    lstat p is a directory                         →  AlreadyExists (strict), ok (permissive)
    lstat p is a link                              →  AlreadyExists (strict), and permissive
        stat p a directory                         →  ok
        stat p something else, or nothing there    →  AlreadyExists
        stat p fails otherwise (a loop, …)         →  System "stat" p

The last line is where the permissive call fails with an error of the OS that the strict one
never meets, such as the loop of a link that leads to itself (`World.selfLinked`).
-/

namespace DirTree

namespace Kind

theorem ofNode_ne_missing (n : Node) : ofNode n ≠ .missing := by
  cases n <;> simp [ofNode]

theorem ofNode_eq_directory {n : Node} : ofNode n = .directory ↔ n.isDir = true := by
  cases n <;> simp [ofNode, Node.isDir]

end Kind

namespace Handle

variable {w : World} {p : Path}

/-- The answer of the permissive flag at a link: whether following it finds a directory. -/
def linkVerdict (w : World) (p : Path) : Except TreeError Unit :=
  match w.stat p.bytes with
  | .ok n => if n.isDir then .ok () else .error (.alreadyExists "mkdir" p)
  | .error e =>
    if e.meansMissing then .error (.alreadyExists "mkdir" p)
    else .error (.system "stat" p (.ofErrno e))

theorem mkdirTree_of_look_error {e : TreeError} (hl : look w p = .error e) (mode : Mode)
    (flags : Flags) :
    mkdirTree p mode flags w = (.error e, w) := by
  unfold mkdirTree
  rw [mkdir]
  simp only [classify, new, hl]

/-- Below a missing path the flag is not read: the directory part is made tolerantly either way. -/
theorem mkdirTree_of_missing_permissive (hl : look w p = .ok .missing) (mode : Mode) (r b : Bool) :
    mkdirTree p mode ⟨b, r⟩ w = mkdirTree p mode ⟨false, r⟩ w := by
  by_cases htop : r = false ∨ p.dirname.isEmpty = true
  · rw [@mkdirTree_of_missing_top w p hl ⟨b, r⟩ htop mode,
      @mkdirTree_of_missing_top w p hl ⟨false, r⟩ htop mode]
  · have hr : r = true := by simpa using (not_or.mp htop).1
    have hne : p.dirname.isEmpty = false := by simpa using (not_or.mp htop).2
    -- both make the directory part with the same flags, `⟨true, r⟩`
    rcases hd : mkdirTree p.dirname mode ⟨true, r⟩ w with ⟨r₀, w'⟩
    have hbefore (b' : Bool) :
        mkdirTree p.dirname mode ((⟨b', r⟩ : Flags).withPermissive true) w = (r₀, w') := hd
    rw [@mkdirTree_of_missing_below w p hl ⟨b, r⟩ hr hne mode _ _ (hbefore b),
      @mkdirTree_of_missing_below w p hl ⟨false, r⟩ hr hne mode _ _ (hbefore false)]
    cases r₀ <;> rfl

/-- Where something is found at the path, nothing changes, and the flag decides the answer. -/
theorem mkdirTree_of_found {k : Kind} (hl : look w p = .ok k) (hk : k ≠ .missing) (mode : Mode)
    (flags : Flags) :
    mkdirTree p mode flags w =
      (if flags.permissive && (k == .directory) then .ok ()
        else if flags.permissive && (k == .symlink) then linkVerdict w p
        else .error (.alreadyExists "mkdir" p), w) := by
  unfold mkdirTree
  rw [mkdir]
  simp only [classify, new, hl]
  cases k with
  | missing => exact absurd rfl hk
  | directory => cases flags.permissive <;> rfl
  | symlink =>
    cases flags.permissive
    · rfl
    · simp only [linksToDir, linkVerdict]
      cases w.stat p.bytes with
      | ok n => cases hn : n.isDir <;> simp [hn]
      | error e => cases he : e.meansMissing <;> simp [he]
  | regular | unknown => cases flags.permissive <;> rfl

/-- Where `lstat` fails, the flag changes nothing: the path counts as missing, or the failure is
the answer. -/
theorem mkdirTree_permissive_of_lstat_error {e : Errno} (hs : w.lstat p.bytes = .error e)
    (mode : Mode) (r b : Bool) :
    mkdirTree p mode ⟨b, r⟩ w = mkdirTree p mode ⟨false, r⟩ w := by
  cases hm : e.meansMissing with
  | true => exact mkdirTree_of_missing_permissive (look_of_missing hs hm) mode r b
  | false =>
    have hl : look w p = .error (.system "stat" p (.ofErrno e)) := by simp [look, hs, hm]
    rw [mkdirTree_of_look_error hl, mkdirTree_of_look_error hl]

/-- **The permissive flag only accepts what is there.** Two `mkdir` calls from the same world
that differ only in the permissive flag leave the same world. Their answers are the same unless
`lstat` finds a directory or a link at the path, where the strict call answers `AlreadyExists`:
the permissive one then answers ok for a directory, and for a link what following it finds: ok
for a directory, `AlreadyExists` for anything else or nothing, and the error of `stat` when
following it fails otherwise. -/
theorem mkdirTree_permissive_at_leaf (p : Path) (mode : Mode) (r : Bool) :
    (mkdirTree p mode ⟨true, r⟩ w).2 = (mkdirTree p mode ⟨false, r⟩ w).2 ∧
    ((∀ n, w.lstat p.bytes = .ok n → n.isDir = false ∧ Kind.ofNode n ≠ .symlink) →
      (mkdirTree p mode ⟨true, r⟩ w).1 = (mkdirTree p mode ⟨false, r⟩ w).1) ∧
    (∀ n, w.lstat p.bytes = .ok n → n.isDir = true →
      (mkdirTree p mode ⟨false, r⟩ w).1 = .error (.alreadyExists "mkdir" p) ∧
        (mkdirTree p mode ⟨true, r⟩ w).1 = .ok ()) ∧
    (∀ n, w.lstat p.bytes = .ok n → Kind.ofNode n = .symlink →
      (mkdirTree p mode ⟨false, r⟩ w).1 = .error (.alreadyExists "mkdir" p) ∧
        (mkdirTree p mode ⟨true, r⟩ w).1 = linkVerdict w p) := by
  cases hs : w.lstat p.bytes with
  | error e =>
    -- nothing is found: both calls go the same way
    have heq := mkdirTree_permissive_of_lstat_error hs mode r true
    refine ⟨by rw [heq], fun _ => by rw [heq], fun n hn => ?_, fun n hn => ?_⟩ <;> cases hn
  | ok n =>
    -- something is found: neither call changes anything, and the flag decides the answer
    have hl := look_of_lstat hs
    rw [mkdirTree_of_found hl (Kind.ofNode_ne_missing n),
      mkdirTree_of_found hl (Kind.ofNode_ne_missing n)]
    refine ⟨rfl, fun hno => ?_, fun n' hn hd => ?_, fun n' hn hk => ?_⟩
    · obtain ⟨hd, hk⟩ := hno n rfl
      have hnd : Kind.ofNode n ≠ .directory := fun h => by
        simp [Kind.ofNode_eq_directory.mp h] at hd
      simp [hnd, hk]
    · cases hn
      simp [Kind.ofNode_eq_directory.mpr hd]
    · cases hn
      simp [hk]

end Handle

/-! ## A link that leads to itself -/

namespace World

variable {w : World}

open Bytes

theorem walk_self_link {cur : Spot} {c : Bytes} {loc : Loc} (md : Bool)
    (hs : w.allows cur searchBit = true) (hl : w.lookup cur c = .ok (loc, .link c))
    (hc : components c = [c]) (hslash : startsWithSlash c = false) (hend : endsWithSlash c = false)
    (hdot : (c == dot) = false) (hdd : (c == dotdot) = false) (k : Nat) :
    w.walk false true md k cur [c] = .error .loop := by
  -- by induction on the links still allowed
  suffices h : ∀ n k, maxLinks - k = n → w.walk false true md k cur [c] = .error .loop from
    h _ k rfl
  intro n
  induction n with
  | zero =>
    intro k hk
    have hle : maxLinks ≤ k := by omega
    rw [walk.eq_2]
    simp [hs, hdot, hdd, hl, hle]
  | succ n ih =>
    intro k hk
    have hlt : ¬ maxLinks ≤ k := by omega
    rw [walk.eq_2]
    simpa [hs, hdot, hdd, hl, hlt, hslash, hend, hc] using ih (k + 1) (by omega)

/-- `/` holding a link `l` whose body is `l`, the working directory being `/`. -/
def selfLinked : World := ⟨.dir 0o755 .system [([108], .link [108])], .live []⟩

theorem selfLinked_start : selfLinked.start [108] = .ok (.live []) := rfl

theorem selfLinked_lookup : selfLinked.lookup (.live []) [108] = .ok ([[108]], .link [108]) := rfl

theorem selfLinked_lstat : selfLinked.lstat [108] = .ok (.link [108]) := by
  have hroot : selfLinked.allows (.live []) searchBit = true := rfl
  have hnode : selfLinked.nodeAt (.live [[108]]) = some (.link [108]) := rfl
  -- the link is the last component and is not followed
  have hwalk :
      selfLinked.walk false false false 0 (.live []) [[108]] = .ok ⟨.live [[108]], none, 0⟩ := by
    rw [walk.eq_2]
    simp [hroot, selfLinked_lookup, dot, dotdot, walk.eq_1, hnode]
  simp [lstat, resolve, selfLinked_start, endsWithSlash, slash, components, pieces, hwalk, bind,
    Except.bind, nodeOf, pure, Except.pure, hnode]

theorem selfLinked_stat : selfLinked.stat [108] = .error .loop := by
  have hwalk := walk_self_link false rfl selfLinked_lookup rfl rfl rfl rfl rfl 0
  simp [stat, resolve, selfLinked_start, endsWithSlash, slash, components, pieces, hwalk, bind,
    Except.bind]

end World

namespace Handle

/-- A strict `mkdir` of a link that leads to itself answers `AlreadyExists`; a permissive one
follows the link, fails with a loop, and answers that error of the OS. -/
theorem mkdirTree_permissive_self_link :
    World.selfLinked.stat [108] = .error .loop ∧
      (mkdirTree ⟨[108]⟩ Mode.default ⟨false, false⟩ World.selfLinked).1 =
        .error (.alreadyExists "mkdir" ⟨[108]⟩) ∧
      (mkdirTree ⟨[108]⟩ Mode.default ⟨true, false⟩ World.selfLinked).1 =
        .error (.system "stat" ⟨[108]⟩ (.ofErrno .loop)) := by
  have hl : look World.selfLinked ⟨[108]⟩ = .ok .symlink := look_of_lstat World.selfLinked_lstat
  refine ⟨World.selfLinked_stat, ?_, ?_⟩
  · rw [mkdirTree_of_found hl (by decide)]
    rfl
  · rw [mkdirTree_of_found hl (by decide)]
    simp [linkVerdict, World.selfLinked_stat, Errno.meansMissing]

/-- At the link that leads to itself, the strict call answers `AlreadyExists` and the permissive
one what following the link finds. -/
theorem mkdirTree_permissive_at_self_link :
    World.selfLinked.lstat [108] = .ok (.link [108]) ∧
      (mkdirTree ⟨[108]⟩ Mode.default ⟨false, false⟩ World.selfLinked).1 =
        .error (.alreadyExists "mkdir" ⟨[108]⟩) ∧
      (mkdirTree ⟨[108]⟩ Mode.default ⟨true, false⟩ World.selfLinked).1 =
        linkVerdict World.selfLinked ⟨[108]⟩ :=
  ⟨World.selfLinked_lstat,
    (mkdirTree_permissive_at_leaf ⟨[108]⟩ Mode.default false).2.2.2 _ World.selfLinked_lstat
      rfl⟩

end Handle

end DirTree
