import DirTree.Disk.World

/-!
# Path resolution

A path is resolved one component at a time from `/` (absolute paths) or from the working
directory. Before each component the directory it is looked up in must grant search permission.
`.` stays, `..` goes up. A symbolic link met before the last component is replaced by its body,
which is resolved from `/` or from the link's directory; a link the kernel keeps leads to what
it stands for directly: the working directory, or a file held outside the tree. The last component's link is followed only when asked. At most
40 links are followed. A path that ends in `/` must name a directory, through its links.

    resolve w p follow mustDir : the spot or node location that p names
    resolveParent w p          : the directory that holds p's last component, and that component

The calls that create and remove entries only resolve the directory above the last component,
and treat the component itself by its shape (`Last`).
-/

namespace DirTree

/-- The most symbolic links one resolution follows. -/
def maxLinks : Nat := 40

/-- The last component of a path: none at all when the path is `/`, a `.` or `..`, or a name
with whether the path ends in `/`. -/
inductive Last where
  | root
  | dot
  | dotdot
  | name (n : Bytes) (slash : Bool)
deriving DecidableEq, Repr

def Last.ofComponent (c : Bytes) (slash : Bool) : Last :=
  if c == Bytes.dot then .dot else if c == Bytes.dotdot then .dotdot else .name c slash

/-- Where a walk ends: a spot, the component it stopped before (when it stops before the last),
and the number of links followed on the way. -/
structure Reach where
  spot : Spot
  rest : Option Bytes
  links : Nat
deriving Repr

namespace World

/-! ## Algorithm -/

/-- Walks the components `todo` from the directory `cur`. With `parentOnly` the walk stops before
the last component, once its directory has granted search permission. Otherwise the last
component's link is followed when `follow`, and the end must be a directory when `mustDir`. -/
def walk (w : World) (parentOnly follow mustDir : Bool) (links : Nat) (cur : Spot) :
    List Bytes → Except Errno Reach
  | [] =>
    match w.nodeAt cur with
    | some n => if mustDir && !n.isDir then .error .notDir else .ok ⟨cur, none, links⟩
    | none => .error .noEntry
  | c :: rest =>
    if !w.allows cur searchBit then .error .accessDenied
    else if parentOnly && rest.isEmpty then .ok ⟨cur, some c, links⟩
    else if c == Bytes.dot then w.walk parentOnly follow mustDir links cur rest
    else if c == Bytes.dotdot then w.walk parentOnly follow mustDir links cur.parent rest
    else match w.lookup cur c with
      | .error e => .error e
      | .ok (loc, .link body) =>
        if !rest.isEmpty || follow then
          if _h : maxLinks ≤ links then .error .loop
          else
            let start := if Bytes.startsWithSlash body then Spot.live [] else cur
            let final := rest.isEmpty && Bytes.endsWithSlash body
            w.walk parentOnly (follow || final) (mustDir || final) (links + 1) start
              (Bytes.components body ++ rest)
        else w.walk parentOnly follow mustDir links (.live loc) rest
      | .ok (loc, .magic dest) =>
        if !rest.isEmpty || follow then
          if _h : maxLinks ≤ links then .error .loop
          else match dest with
            | .cwd => w.walk parentOnly follow mustDir (links + 1) w.cwd rest
            | .held h =>
              if rest.isEmpty then w.walk parentOnly follow mustDir (links + 1) (.held h) rest
              else .error .notDir
        else w.walk parentOnly follow mustDir links (.live loc) rest
      | .ok (loc, .dir ..) => w.walk parentOnly follow mustDir links (.live loc) rest
      | .ok (loc, _) =>
        if rest.isEmpty then w.walk parentOnly follow mustDir links (.live loc) rest
        else .error .notDir
termination_by todo => (maxLinks - links, todo.length)
decreasing_by
  all_goals first
    | exact Prod.Lex.right _ (by simp)
    | exact Prod.Lex.left _ _ (by simp only [maxLinks] at *; omega)

/-- Where the walk of a whole path starts: a path of `pathMax` bytes or more is too long, an
empty path names nothing, an absolute path starts at `/`. -/
def start (w : World) (path : Bytes) : Except Errno Spot :=
  if pathMax ≤ path.length then .error .nameTooLong
  else if path.isEmpty then .error .noEntry
  else .ok (if Bytes.startsWithSlash path then .live [] else w.cwd)

/-- What a path names. The last link is followed when `follow`; the path must name a directory
when `mustDir`. A path ending in `/` does both. -/
def resolve (w : World) (path : Bytes) (follow mustDir : Bool) : Except Errno Spot := do
  let s ← w.start path
  let slash := Bytes.endsWithSlash path
  let r ← w.walk false (follow || slash) (mustDir || slash) 0 s (Bytes.components path)
  pure r.spot

/-- The directory that holds the last component of `body`, walked from `dir` after `links`
links, and that component's shape. -/
def parentFrom (w : World) (links : Nat) (dir : Spot) (body : Bytes) :
    Except Errno (Spot × Last × Nat) := do
  let r ← w.walk true false false links dir (Bytes.components body)
  match r.rest with
  | none => pure (r.spot, .root, r.links)
  | some c => pure (r.spot, Last.ofComponent c (Bytes.endsWithSlash body), r.links)

/-- The directory that holds a path's last component, and that component's shape. -/
def resolveParent (w : World) (path : Bytes) : Except Errno (Spot × Last) := do
  let s ← w.start path
  let (dir, last, _) ← w.parentFrom 0 s path
  pure (dir, last)

end World

end DirTree
