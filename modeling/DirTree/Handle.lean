import DirTree.Disk.Calls
import DirTree.Error
import DirTree.Kind

/-!
# Handles

A handle is a path with the kind of entry found there, once it has been looked at. Classifying
asks the OS only when the handle knows no kind yet, and remembers the answer; an error that says
that nothing is there (no such entry, or an ancestor that is not a directory) is the answer
`missing`. Any other error is reported and nothing is remembered:

    (h.classify w).1 = .ok k      →  (h.classify w).2.cached = some k
    h.cached = some k             →  h.classify w = (.ok k, h)
-/

namespace DirTree

/-- A path, and the kind of entry found there if it has been looked at. -/
structure Handle where
  path : Path
  cached : Option Kind
deriving DecidableEq, Repr, Inhabited

/-- What an operation on a handle leaves behind: its result, the handle with what it remembers,
and the world after it. -/
structure Done (α : Type) where
  result : Except TreeError α
  handle : Handle
  world : World

namespace Kind

/-- The kind of a node as seen without following it. -/
def ofNode : Node → Kind
  | .dir .. => .directory
  | .file _ => .regular
  | .link _ => .symlink
  | .magic _ => .symlink
  | _ => .unknown

end Kind

namespace Errno

/-- Whether the error says that nothing is at the path. -/
def meansMissing (e : Errno) : Bool := e == .noEntry || e == .notDir

end Errno

namespace Handle

def new (p : Path) : Handle := ⟨p, none⟩

def invalidate (h : Handle) : Handle := { h with cached := none }

/-! ## Algorithm -/

/-- The kind of entry at a path, asked of the OS without following a last link. -/
def look (w : World) (p : Path) : Except TreeError Kind :=
  match w.lstat p.bytes with
  | .ok n => .ok (Kind.ofNode n)
  | .error e => if e.meansMissing then .ok .missing else .error (.system "stat" p (.ofErrno e))

/-- The kind of entry at the handle's path: the remembered one, or a fresh look, remembered. -/
def classify (h : Handle) (w : World) : Except TreeError Kind × Handle :=
  match h.cached with
  | some k => (.ok k, h)
  | none =>
    match look w h.path with
    | .ok k => (.ok k, { h with cached := some k })
    | .error e => (.error e, h)

def exists? (h : Handle) (w : World) : Except TreeError Bool × Handle :=
  let (r, h') := h.classify w
  (r.map (!·.isMissing), h')

/-- Whether the path names a directory through its links; nothing there is `false`. -/
def linksToDir (h : Handle) (w : World) : Except TreeError Bool :=
  match w.stat h.path.bytes with
  | .ok n => .ok n.isDir
  | .error e => if e.meansMissing then .ok false else .error (.system "stat" h.path (.ofErrno e))

/-! ## Lemmas -/

theorem classify_cached (h : Handle) (w : World) (k : Kind) (hk : h.cached = some k) :
    h.classify w = (.ok k, h) := by
  simp [classify, hk]

theorem look_of_lstat {w : World} {p : Path} {n : Node} (hl : w.lstat p.bytes = .ok n) :
    look w p = .ok (Kind.ofNode n) := by
  simp [look, hl]

/-- Looking fails only where `lstat` fails with an error that does not mean missing, reported as
a failed `stat` of the path. -/
theorem look_error {w : World} {p : Path} {e : TreeError} (h : look w p = .error e) :
    ∃ err, w.lstat p.bytes = .error err ∧ err.meansMissing = false ∧
      e = .system "stat" p (.ofErrno err) := by
  unfold look at h
  cases hs : w.lstat p.bytes with
  | ok n => simp [hs] at h
  | error err =>
    simp only [hs] at h
    split at h
    · cases h
    · cases h
      exact ⟨err, rfl, by simpa using ‹¬err.meansMissing = true›, rfl⟩

/-- Classifying fails only for a handle that remembers nothing, when looking fails. -/
theorem classify_error {h : Handle} {w : World} {e : TreeError} (he : (h.classify w).1 = .error e) :
    h.cached = none ∧ look w h.path = .error e := by
  unfold classify at he
  cases hk : h.cached with
  | some k => simp [hk] at he
  | none =>
    simp only [hk] at he
    cases hl : look w h.path with
    | ok k => simp [hl] at he
    | error e' =>
      simp only [hl] at he
      exact ⟨rfl, he⟩

theorem classify_remembers (h : Handle) (w : World) (k : Kind)
    (hk : (h.classify w).1 = .ok k) : (h.classify w).2.cached = some k := by
  unfold classify at hk ⊢
  cases hc : h.cached with
  | some k' => simp_all
  | none =>
    simp only [hc] at hk ⊢
    cases hl : look w h.path with
    | ok k' => simp_all
    | error e => simp_all

end Handle

end DirTree
