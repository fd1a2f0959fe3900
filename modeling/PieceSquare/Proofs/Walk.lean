import Mathlib
import PieceSquare.Walk

set_option autoImplicit false

/-! # Random walks stay within the rules

A source of random numbers draws below its bound, so that every move of a walk is one of the moves of
its position, and a walk is shorter than the length drawn for it only where there is no move
(`Game.exists_plays_wander`). What holds at the start of the game and is kept by its moves holds at the
end of every walk. The walks of a run are single walks, each with the source as the one before it
leaves it (`Game.walks_eq_map_range`), and so the first of them do not depend on how many are asked for.

Nothing of this depends on the game or on the source. Chess by its legal moves is one game, and the
generator, whose numbers are below their bound (`Generator.below_lt`), is one source.
-/

namespace PieceSquare

namespace Game

variable {σ μ γ : Type} (G : Game σ μ) (R : Source γ)

/-! ## One walk -/

/-- Whether moves lead from one position to another, each of them a move where it is played. -/
inductive Plays : σ → List μ → σ → Prop where
  | nil (b : σ) : Plays b [] b
  | cons {b b' : σ} {m : μ} {moves : List μ} (hm : m ∈ G.moves b)
    (hmoves : Plays (G.play b m) moves b') : Plays b (m :: moves) b'

variable {G} in
/-- What is kept by every move is kept by moves in a row. -/
theorem Plays.preserves {P : σ → Prop} (hP : ∀ b m, P b → m ∈ G.moves b → P (G.play b m))
    {b b' : σ} {moves : List μ} (h : G.Plays b moves b') (hb : P b) : P b' := by
  induction h with
  | nil => exact hb
  | cons hm _ ih => exact ih (hP _ _ hb hm)

/-- The number that is drawn in a position is below the number of moves. -/
theorem drawn_lt {b : σ} (h : G.moves b ≠ []) (g : γ) :
    (R.below (G.moves b).length g).1 < (G.moves b).length :=
  R.below_lt (List.length_pos_of_ne_nil h) g

/-- The move that is drawn in a position. -/
theorem exists_drawn_move {b : σ} (h : G.moves b ≠ []) (g : γ) :
    ∃ m ∈ G.moves b, (G.moves b)[(R.below (G.moves b).length g).1]? = some m :=
  have hlt := G.drawn_lt R h g
  ⟨_, List.getElem_mem hlt, List.getElem?_eq_getElem hlt⟩

theorem wander_succ_of_moves {b : σ} {g : γ} {m : μ}
    (hm : (G.moves b)[(R.below (G.moves b).length g).1]? = some m) (plies : Nat) :
    G.wander R (plies + 1) b g =
      G.wander R plies (G.play b m) (R.below (G.moves b).length g).2 := by
  have hne : ¬ (G.moves b).isEmpty = true := by
    intro hempty
    rw [List.isEmpty_iff.mp hempty] at hm
    cases hm
  simp only [wander, hm, if_neg hne]

/-- Moves lead to the end of a walk, no more of them than wanted, and fewer only if there is no move
left. -/
theorem exists_plays_wander (plies : Nat) (b : σ) (g : γ) :
    ∃ moves, G.Plays b moves (G.wander R plies b g).1 ∧ moves.length ≤ plies ∧
      (moves.length < plies → G.moves (G.wander R plies b g).1 = []) := by
  induction plies generalizing b g with
  | zero => exact ⟨[], .nil b, le_rfl, fun h => absurd h (lt_irrefl 0)⟩
  | succ plies ih =>
      by_cases hnone : G.moves b = []
      · have hstop : G.wander R (plies + 1) b g = (b, g) := by simp [wander, hnone]
        rw [hstop]
        exact ⟨[], .nil b, Nat.zero_le _, fun _ => hnone⟩
      · obtain ⟨m, hm, hdrawn⟩ := G.exists_drawn_move R hnone g
        obtain ⟨moves, hplays, hle, hshort⟩ :=
          ih (G.play b m) (R.below (G.moves b).length g).2
        rw [G.wander_succ_of_moves R hdrawn]
        refine ⟨m :: moves, .cons hm hplays, Nat.succ_le_succ hle, fun hlt => hshort ?_⟩
        exact Nat.lt_of_succ_lt_succ hlt

/-- The length that is drawn for a walk. No draw is made where only one length is possible. -/
def drawnLength (R : Source γ) (maxPlies : Nat) (g : γ) : Nat :=
  if maxPlies = 0 then 0 else (R.below (maxPlies + 1) g).1

theorem drawnLength_le (maxPlies : Nat) (g : γ) : drawnLength R maxPlies g ≤ maxPlies := by
  unfold drawnLength
  split_ifs
  · exact Nat.zero_le _
  · exact Nat.le_of_lt_succ (R.below_lt (Nat.succ_pos maxPlies) g)

theorem exists_walk_eq_wander (maxPlies : Nat) (g : γ) :
    ∃ g', G.walk R maxPlies g = G.wander R (drawnLength R maxPlies g) G.start g' := by
  unfold walk drawnLength
  split_ifs
  · exact ⟨g, rfl⟩
  · exact ⟨_, rfl⟩

/-- A position at the end of a walk, given the length that was drawn for the walk. -/
def IsWalkEnd (length : Nat) (b : σ) : Prop :=
  ∃ moves, G.Plays G.start moves b ∧ moves.length ≤ length ∧
    (moves.length < length → G.moves b = [])

theorem isWalkEnd_walk (maxPlies : Nat) (g : γ) :
    G.IsWalkEnd (drawnLength R maxPlies g) (G.walk R maxPlies g).1 := by
  obtain ⟨g', hwalk⟩ := G.exists_walk_eq_wander R maxPlies g
  rw [hwalk]
  exact G.exists_plays_wander R _ _ _

/-! ## All walks of a run -/

/-- The source behind a number of walks. -/
def sourceBehind (maxPlies : Nat) (g : γ) (walked : Nat) : γ :=
  (fun g => (G.walk R maxPlies g).2)^[walked] g

theorem walks_eq_map_range (maxPlies count : Nat) (g : γ) : G.walks R maxPlies count g =
    (List.range count).map fun i => (G.walk R maxPlies (G.sourceBehind R maxPlies g i)).1 := by
  induction count generalizing g with
  | zero => rfl
  | succ count ih =>
      show (G.walk R maxPlies g).1 :: G.walks R maxPlies count (G.walk R maxPlies g).2 = _
      rw [List.range_succ_eq_map, List.map_cons, List.map_map, ih]
      rfl

theorem length_walks (maxPlies count : Nat) (g : γ) :
    (G.walks R maxPlies count g).length = count := by
  rw [walks_eq_map_range, List.length_map, List.length_range]

theorem take_walks {n count : Nat} (h : n ≤ count) (maxPlies : Nat) (g : γ) :
    (G.walks R maxPlies count g).take n = G.walks R maxPlies n g := by
  rw [walks_eq_map_range, walks_eq_map_range, ← List.map_take, List.take_range, Nat.min_eq_left h]

theorem getElem?_walks {i count : Nat} (hi : i < count) (maxPlies : Nat) (g : γ) :
    (G.walks R maxPlies count g)[i]? =
      some (G.walk R maxPlies (G.sourceBehind R maxPlies g i)).1 := by
  rw [walks_eq_map_range, List.getElem?_map, List.getElem?_range hi]
  rfl

theorem preserved_of_mem_walks {P : σ → Prop} (hstart : P G.start)
    (hP : ∀ b m, P b → m ∈ G.moves b → P (G.play b m)) {maxPlies count : Nat} {g : γ}
    {b : σ} (hb : b ∈ G.walks R maxPlies count g) : P b := by
  rw [walks_eq_map_range] at hb
  obtain ⟨i, -, rfl⟩ := List.mem_map.mp hb
  obtain ⟨moves, hplays, -, -⟩ := G.isWalkEnd_walk R maxPlies (G.sourceBehind R maxPlies g i)
  exact hplays.preserves hP hstart

/-- What random positions are to be, for every number of them, every bound and every seed, where a seed
gives the first state of the source: the ends of walks by the moves of the game, each of the length
drawn for it unless no move is left. No draw of a move misses the moves, and fewer positions are the
first ones of more. -/
structure AreWalkEnds {ι : Type} (ofSeed : ι → γ) (ends : Nat → Nat → ι → List σ) : Prop where
  length : ∀ count maxPlies seed, (ends count maxPlies seed).length = count
  walk : ∀ count maxPlies seed i, i < count → ∃ b, (ends count maxPlies seed)[i]? = some b ∧
    G.IsWalkEnd (drawnLength R maxPlies (G.sourceBehind R maxPlies (ofSeed seed) i)) b
  bounded : ∀ maxPlies g, drawnLength R maxPlies g ≤ maxPlies
  drawn : ∀ b g, G.moves b ≠ [] → (R.below (G.moves b).length g).1 < (G.moves b).length
  preserves : ∀ P : σ → Prop, P G.start → (∀ b m, P b → m ∈ G.moves b → P (G.play b m)) →
    ∀ count maxPlies seed, ∀ b ∈ ends count maxPlies seed, P b
  first : ∀ n count maxPlies seed, n ≤ count →
    ends n maxPlies seed = (ends count maxPlies seed).take n

/-- The walks of any game with any source are what random positions are to be. -/
theorem areWalkEnds_walks {ι : Type} (ofSeed : ι → γ) :
    G.AreWalkEnds R ofSeed fun count maxPlies seed =>
      G.walks R maxPlies count (ofSeed seed) := by
  constructor
  case length => exact fun count maxPlies seed => G.length_walks R maxPlies count (ofSeed seed)
  case walk =>
    intro count maxPlies seed i hi
    exact ⟨_, G.getElem?_walks R hi maxPlies (ofSeed seed), G.isWalkEnd_walk R _ _⟩
  case bounded => exact drawnLength_le R
  case drawn => exact fun b g hne => G.drawn_lt R hne g
  case preserves => exact fun P hstart hP count maxPlies seed b hb =>
    G.preserved_of_mem_walks R hstart hP hb
  case first =>
    exact fun n count maxPlies seed h => (G.take_walks R h maxPlies (ofSeed seed)).symm

end Game

/-- The random boards of the program are the ends of walks by legal moves of chess. -/
theorem randomBoards_areWalkEnds :
    chess.AreWalkEnds Generator.source Generator.ofSeed randomBoards :=
  chess.areWalkEnds_walks Generator.source Generator.ofSeed

end PieceSquare
