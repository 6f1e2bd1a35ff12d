import Mathlib.Logic.Function.Iterate
import DirTree.Proofs.Calls
import DirTree.Tree.Mkdir

/-!
# What making a directory does

Making the directory at a path `p` climbs the directory parts of `p` byte by byte: `p`, then
`p.dirname`, and so on (`p.ancestor i`). With recursion it first makes the directory part,
tolerantly, and then `p` itself. Whatever the world and the path, everything it changes is done
by `mkdir` calls with the given mode at directory parts, outermost first; it keeps everything that
was there and undoes nothing it made; on success the path names a directory, and an error names
a directory part below every directory that was made (`MkdirFrame`):

    ∃ is, MkdirFrame w p mode.bits flags.recursive is d.result d.world   (d = mkdir of p from w)

The proof follows the recursion on the directory part: what the recursion did is seen one level
further up the path (`MkdirFrame.before`), and the path's own `mkdir` call ends the run
(`of_before_error`, `of_before_made`, `of_before_failed`).
-/

namespace DirTree

namespace Path

/-- The `i`-th directory part of a path: the path itself, its directory part, that one's, and so
on. -/
def ancestor (p : Path) (i : Nat) : Path := dirname^[i] p

@[simp] theorem ancestor_zero (p : Path) : p.ancestor 0 = p := rfl

theorem ancestor_succ (p : Path) (i : Nat) : p.ancestor (i + 1) = p.dirname.ancestor i :=
  Function.iterate_succ_apply dirname i p

end Path

namespace World

/-- The world `w'` is `w` after `mkdir` calls, each with the mode `mode` and each succeeding, at
the paths `as` in order. -/
inductive MkdirChain (mode : Nat) : World → List Path → World → Prop
  | nil (w : World) : MkdirChain mode w [] w
  | cons {w w₁ w₂ : World} {a : Path} {rest : List Path} :
      w.mkdir a.bytes mode = .ok w₁ → MkdirChain mode w₁ rest w₂ → MkdirChain mode w (a :: rest) w₂

namespace MkdirChain

variable {mode : Nat} {w w' w'' : World}

theorem append {as bs : List Path} (h₁ : MkdirChain mode w as w') (h₂ : MkdirChain mode w' bs w'') :
    MkdirChain mode w (as ++ bs) w'' := by
  induction h₁ with
  | nil => exact h₂
  | cons hm _ ih => exact .cons hm (ih h₂)

theorem single {a : Path} (h : w.mkdir a.bytes mode = .ok w') : MkdirChain mode w [a] w' :=
  .cons h (.nil _)

/-- `mkdir` only adds: the world after the chain extends the one before. -/
theorem grows {as : List Path} (h : MkdirChain mode w as w') : w.Extends w' := by
  induction h with
  | nil w => exact .refl w
  | cons hm _ ih => exact (mkdir_extends hm).trans ih

end MkdirChain

end World

open World

/-- Directories made at the directory parts `p.ancestor i` for `i ∈ is`, outermost first, by
successful `mkdir` calls with the mode and nothing else, each still a directory in `w'`. -/
structure MkdirMade (w : World) (p : Path) (mode : Nat) (is : List Nat) (w' : World) : Prop where
  order : is.Pairwise (· > ·)
  chain : MkdirChain mode w (is.map p.ancestor) w'
  grows : w.Extends w'
  kept : ∀ i ∈ is, ∃ n, w'.stat (p.ancestor i).bytes = .ok n ∧ n.isDir = true

/-- What a `mkdir` of the path `p` from the world `w` did when it ended with `result` in the
world `w'`, having made directories at the directory parts `p.ancestor i` for `i ∈ is`: without
recursion at most the path itself, on success a path that names a directory through links, and on
an error one that names a directory part below every directory made. -/
structure MkdirFrame (w : World) (p : Path) (mode : Nat) (recursive : Bool) (is : List Nat)
    (result : Except TreeError Unit) (w' : World) : Prop extends MkdirMade w p mode is w' where
  single : recursive = false → ∀ i ∈ is, i = 0
  ok : result = .ok () → ∃ n, w'.stat p.bytes = .ok n ∧ n.isDir = true
  error : ∀ e, result = .error e → ∃ k, e.path = p.ancestor k ∧ ∀ i ∈ is, k < i

namespace MkdirMade

variable {w w' w'' : World} {p : Path} {mode : Nat} {is : List Nat}

theorem nil (w : World) (p : Path) (mode : Nat) : MkdirMade w p mode [] w where
  order := List.Pairwise.nil
  chain := .nil w
  grows := .refl w
  kept := fun _ hi => absurd hi List.not_mem_nil

theorem lift (h : MkdirMade w p.dirname mode is w') : MkdirMade w p mode (is.map (· + 1)) w' where
  order := List.pairwise_map.mpr (h.order.imp fun hij => by omega)
  chain := by
    rw [List.map_map]
    convert h.chain using 2
    funext i
    exact Path.ancestor_succ p i
  grows := h.grows
  kept := by
    intro i hi
    obtain ⟨j, hj, rfl⟩ := List.mem_map.mp hi
    rw [Path.ancestor_succ]
    exact h.kept j hj

/-- A last `mkdir` of the path itself, below everything made before. -/
theorem snoc (hw : w.Sound) (h : MkdirMade w p mode is w') (hpos : ∀ i ∈ is, 0 < i)
    (hm : w'.mkdir p.bytes mode = .ok w'') : MkdirMade w p mode (is ++ [0]) w'' where
  order := List.pairwise_append.mpr ⟨h.order, List.pairwise_singleton _ _,
    fun i hi j hj => by rw [List.mem_singleton.mp hj]; exact hpos i hi⟩
  chain := by
    rw [List.map_append]
    exact h.chain.append (.single hm)
  grows := h.grows.trans (mkdir_extends hm)
  kept := by
    have hw' := h.grows.sound hw
    intro i hi
    rcases List.mem_append.mp hi with hi | hi
    · obtain ⟨n, hn, hd⟩ := h.kept i hi
      obtain ⟨n', hn', hs⟩ := (mkdir_extends hm).stat hw' hn
      exact ⟨n', hn', hs.isDir ▸ hd⟩
    · rw [List.mem_singleton.mp hi]
      exact ⟨_, mkdir_stat hw' hm, rfl⟩

end MkdirMade

/-- What a `mkdir` did before its own `mkdir` call: directories made strictly above the path, none
without recursion, and when that part failed, an error naming a directory part below all of
them. -/
structure MkdirBefore (w : World) (p : Path) (mode : Nat) (recursive : Bool) (is : List Nat)
    (result : Except TreeError Unit) (w' : World) : Prop extends MkdirMade w p mode is w' where
  above : ∀ i ∈ is, 0 < i
  none : recursive = false → is = []
  error : ∀ e, result = .error e → ∃ k, e.path = p.ancestor k ∧ ∀ i ∈ is, k < i

namespace MkdirFrame

variable {w w' w'' : World} {p : Path} {mode : Nat} {recursive : Bool}

theorem stop {result : Except TreeError Unit}
    (hok : result = .ok () → ∃ n, w.stat p.bytes = .ok n ∧ n.isDir = true)
    (herr : ∀ e, result = .error e → e.path = p) : MkdirFrame w p mode recursive [] result w where
  toMkdirMade := .nil w p mode
  single := fun _ _ hi => absurd hi List.not_mem_nil
  ok := hok
  error := fun e he => ⟨0, herr e he, fun _ hi => absurd hi List.not_mem_nil⟩

/-- The directory part's `mkdir`, seen from the path: everything one level further up. -/
theorem before {is : List Nat} {result : Except TreeError Unit}
    (h : MkdirFrame w p.dirname mode recursive is result w') (hrec : recursive = true) :
    MkdirBefore w p mode recursive (is.map (· + 1)) result w' where
  toMkdirMade := h.lift
  above := by
    intro i hi
    obtain ⟨j, -, rfl⟩ := List.mem_map.mp hi
    omega
  none := by
    intro hf
    rw [hrec] at hf
    cases hf
  error := by
    intro e he
    obtain ⟨k, hk, hlt⟩ := h.error e he
    refine ⟨k + 1, by rw [Path.ancestor_succ]; exact hk, ?_⟩
    intro i hi
    obtain ⟨j, hj, rfl⟩ := List.mem_map.mp hi
    have := hlt j hj
    omega

theorem before_nothing (w : World) (p : Path) (mode : Nat) (recursive : Bool) :
    MkdirBefore w p mode recursive [] (.ok ()) w where
  toMkdirMade := .nil w p mode
  above := fun _ hi => absurd hi List.not_mem_nil
  none := fun _ => rfl
  error := fun e he => by cases he

theorem of_before_error {is : List Nat} {e : TreeError}
    (h : MkdirBefore w p mode recursive is (.error e) w') :
    MkdirFrame w p mode recursive is (.error e) w' where
  toMkdirMade := h.toMkdirMade
  single := by
    intro hf i hi
    rw [h.none hf] at hi
    exact absurd hi List.not_mem_nil
  ok := fun hok => by cases hok
  error := h.error

/-- The path's own `mkdir` succeeded, below everything made before. -/
theorem of_before_made (hw : w.Sound) {is : List Nat} (h : MkdirBefore w p mode recursive is (.ok ()) w')
    (hm : w'.mkdir p.bytes mode = .ok w'') :
    MkdirFrame w p mode recursive (is ++ [0]) (.ok ()) w'' where
  toMkdirMade := h.snoc hw h.above hm
  single := by
    intro hf i hi
    rw [h.none hf] at hi
    exact List.mem_singleton.mp hi
  ok := fun _ => ⟨_, mkdir_stat (h.grows.sound hw) hm, rfl⟩
  error := fun e he => by cases he

/-- The path's own `mkdir` failed; the error names the path, below everything made before. -/
theorem of_before_failed {is : List Nat} (h : MkdirBefore w p mode recursive is (.ok ()) w')
    (e : IoError) : MkdirFrame w p mode recursive is (.error (.system "mkdir" p e)) w' where
  toMkdirMade := h.toMkdirMade
  single := by
    intro hf i hi
    rw [h.none hf] at hi
    exact absurd hi List.not_mem_nil
  ok := fun hok => by cases hok
  error := fun e' he => by
    cases he
    exact ⟨0, rfl, h.above⟩

end MkdirFrame

namespace Handle

theorem look_error_path {w : World} {p : Path} {e : TreeError} (h : look w p = .error e) :
    e.path = p := by
  obtain ⟨err, -, -, rfl⟩ := look_error h
  rfl

theorem look_directory {w : World} {p : Path} (h : look w p = .ok .directory) :
    ∃ n, w.lstat p.bytes = .ok n ∧ n.isDir = true := by
  unfold look at h
  cases hs : w.lstat p.bytes with
  | ok n =>
    simp only [hs, Except.ok.injEq] at h
    refine ⟨n, rfl, ?_⟩
    cases n <;> simp_all [Kind.ofNode, Node.isDir]
  | error e' =>
    simp only [hs] at h
    split at h <;> cases h

theorem linksToDir_true {w : World} {h : Handle} (hl : h.linksToDir w = .ok true) :
    ∃ n, w.stat h.path.bytes = .ok n ∧ n.isDir = true := by
  unfold linksToDir at hl
  cases hs : w.stat h.path.bytes with
  | ok n =>
    simp only [hs, Except.ok.injEq] at hl
    exact ⟨n, rfl, hl⟩
  | error e =>
    simp only [hs] at hl
    split at hl <;> simp at hl

theorem linksToDir_error_path {w : World} {h : Handle} {e : TreeError}
    (hl : h.linksToDir w = .error e) : e.path = h.path := by
  unfold linksToDir at hl
  cases hs : w.stat h.path.bytes with
  | ok n => simp [hs] at hl
  | error e' =>
    simp only [hs] at hl
    split at hl
    · cases hl
    · cases hl
      rfl

end Handle

/-- **What `mkdir` does.** Making the directory at a path `p` from a sound world only makes
directories, by `mkdir` calls with the given mode at directory parts of `p`, outermost first, and
at most at `p` itself without recursion. Everything that was there stays, and nothing made is
undone. On success `p` names a directory, through links; an error names a directory part of `p`
below every directory made. -/
theorem mkdir_frame {w : World} (hw : w.Sound) (p : Path) (mode : Mode) (flags : Flags) :
    ∃ is, MkdirFrame w p mode.bits flags.recursive is ((Handle.new p).mkdir mode flags w).result
      ((Handle.new p).mkdir mode flags w).world := by
  induction hn : p.len using Nat.strong_induction_on generalizing p w flags with
  | _ n ih =>
  rw [Handle.mkdir]
  simp only [Handle.classify, Handle.new]
  have taken : MkdirFrame w p mode.bits flags.recursive [] (.error (.alreadyExists "mkdir" p)) w :=
    .stop (fun h => by cases h) (fun e he => by cases he; rfl)
  cases hl : Handle.look w p with
  | error e => exact ⟨[], .stop (fun h => by cases h) (fun e' he => by cases he; exact Handle.look_error_path hl)⟩
  | ok k =>
    cases k with
    | directory =>
      obtain ⟨n, hn, hd⟩ := Handle.look_directory hl
      by_cases hp : flags.permissive = true
      · simp only [hp, if_true]
        exact ⟨[], .stop (fun _ => ⟨n, World.stat_of_lstat_dir hw hn hd, hd⟩) (fun e he => by cases he)⟩
      · simp only [hp, Bool.false_eq_true, if_false]
        exact ⟨[], taken⟩
    | symlink =>
      by_cases hp : flags.permissive = true
      · simp only [hp, if_true]
        cases hld : Handle.linksToDir ⟨p, none⟩ w with
        | error e =>
          exact ⟨[], .stop (fun h => by cases h)
            (fun e' he => by cases he; exact Handle.linksToDir_error_path hld)⟩
        | ok b =>
          cases b with
          | true => exact ⟨[], .stop (fun _ => Handle.linksToDir_true hld) (fun e he => by cases he)⟩
          | false => exact ⟨[], taken⟩
      · simp only [hp, Bool.false_eq_true, if_false]
        exact ⟨[], taken⟩
    | missing =>
      dsimp only
      -- what the recursion on the directory part did comes first
      have hbefore : ∀ r₀ w', (if _hp : (flags.recursive && !p.dirname.isEmpty) = true then
            (((⟨p.dirname, none⟩ : Handle).mkdir mode (flags.withPermissive true) w).result,
              ((⟨p.dirname, none⟩ : Handle).mkdir mode (flags.withPermissive true) w).world)
          else (Except.ok (), w)) = (r₀, w') →
          ∃ is₀, MkdirBefore w p mode.bits flags.recursive is₀ r₀ w' := by
        intro r₀ w' hX
        by_cases hrec : (flags.recursive && !p.dirname.isEmpty) = true
        · rw [dif_pos hrec, Prod.mk.injEq] at hX
          obtain ⟨rfl, rfl⟩ := hX
          have hrec' : flags.recursive = true := by simp_all
          have hlt : p.dirname.len < n := hn ▸ Path.dirname_len_lt p (by simp_all)
          obtain ⟨is₁, hf⟩ := ih p.dirname.len hlt hw p.dirname (flags.withPermissive true) rfl
          exact ⟨is₁.map (· + 1), hf.before hrec'⟩
        · rw [dif_neg hrec, Prod.mk.injEq] at hX
          obtain ⟨rfl, rfl⟩ := hX
          exact ⟨[], MkdirFrame.before_nothing w p mode.bits flags.recursive⟩
      split
      · rename_i e w' hX
        obtain ⟨is₀, hb⟩ := hbefore _ _ hX
        exact ⟨is₀, .of_before_error hb⟩
      · rename_i w' hX
        obtain ⟨is₀, hb⟩ := hbefore _ _ hX
        split
        · rename_i w'' hm
          exact ⟨is₀ ++ [0], .of_before_made hw hb hm⟩
        · exact ⟨is₀, .of_before_failed hb _⟩
    | _ => exact ⟨[], taken⟩

theorem mkdir_frame_from_root :
    (⟨.dir 0o755 .system [], .live []⟩ : World).Sound ∧
      ∃ is, MkdirFrame ⟨.dir 0o755 .system [], .live []⟩ ⟨[97, 47, 98]⟩ 0o755 true is
        ((Handle.new ⟨[97, 47, 98]⟩).mkdir ⟨0o755⟩ ⟨false, true⟩ ⟨.dir 0o755 .system [], .live []⟩).result
        ((Handle.new ⟨[97, 47, 98]⟩).mkdir ⟨0o755⟩ ⟨false, true⟩ ⟨.dir 0o755 .system [], .live []⟩).world :=
  have hw : (⟨.dir 0o755 .system [], .live []⟩ : World).Sound := ⟨⟨_, _, _, rfl⟩, ⟨_, _, _, rfl⟩⟩
  ⟨hw, mkdir_frame hw ⟨[97, 47, 98]⟩ ⟨0o755⟩ ⟨false, true⟩⟩

end DirTree
