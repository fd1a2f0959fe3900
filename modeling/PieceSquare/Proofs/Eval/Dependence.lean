import PieceSquare.Proofs.Encoding.Layout

set_option autoImplicit false

/-! # What an evaluation depends on

An evaluation reads the squares on the twelve piece planes. Lists of planes with the same squares
there (`Planes.SameSquares`) are judged alike, whatever numbers their planes carry and whatever planes
follow (`Planes.JudgedAlike`).

The piece planes of a board are drawn from its men and its side to move (`Board.shown_congr`). So the
formats, the castling rights, the en passant file and the clock, which reach further planes only, do
not change what a board is worth.
-/

namespace PieceSquare

namespace Planes

/-- The piece planes of two lists mark the same squares. -/
def SameSquares (ps qs : Planes) : Prop :=
  ∀ i < 12, (ps[i]?).map Plane.mask = (qs[i]?).map Plane.mask

/-- Every question about two lists has the same answer, to the last bit. -/
structure JudgedAlike (ps qs : Planes) : Prop where
  phase : ∃ phase, ps.phase = .ok phase ∧ qs.phase = .ok phase
  term : ∀ kind phase, ∃ term, ps.term kind phase = .ok term ∧ qs.term kind phase = .ok term
  score : ∃ score, ps.score = .ok score ∧ qs.score = .ok score
  valueWith : ∀ exp, ∃ value, ps.valueWith exp = .ok value ∧ qs.valueWith exp = .ok value
  value : ∃ value, ps.value = .ok value ∧ qs.value = .ok value

/-- The squares of a plane do not depend on its number. -/
theorem men_eq_getD (ps : Planes) (side : Side) (kind : Kind) :
    ps.men side kind = ((ps[slot side kind]?).map Plane.mask).getD 0 := by
  rw [men, plane, List.getD_eq_getElem?_getD]
  cases ps[slot side kind]? <;> rfl

theorem men_congr {ps qs : Planes} (h : ps.SameSquares qs) : ps.men = qs.men := by
  funext side kind
  rw [men_eq_getD, men_eq_getD, h _ (slot_lt side kind)]

/-- An answer is a function of the men. -/
theorem judgedAlike_of_men {ps qs : Planes} (hps : pieceCount ≤ ps.length)
    (hqs : pieceCount ≤ qs.length) (h : ps.men = qs.men) : ps.JudgedAlike qs := by
  have hvalue (exp : Float32 → Float32) :
      ∃ value, ps.valueWith exp = .ok value ∧ qs.valueWith exp = .ok value :=
    ⟨_, valueWith_eq exp hps, by rw [h, valueWith_eq exp hqs]⟩
  constructor
  case phase => exact ⟨_, phase_eq hps, by rw [h, phase_eq hqs]⟩
  case term => exact fun kind phase => ⟨_, term_eq hps kind phase, by rw [h, term_eq hqs]⟩
  case score => exact ⟨_, score_eq hps, by rw [h, score_eq hqs]⟩
  case valueWith => exact hvalue
  case value => exact hvalue Float32.exp

end Planes

/-- What the side to move sees is a matter of the men and of whose turn it is. -/
theorem Board.shown_congr {b b' : Board} (hmen : b'.men = b.men) (hturn : b'.turn = b.turn) :
    b'.shown = b.shown := by
  cases b
  cases b'
  cases hmen
  cases hturn
  rfl

theorem Board.judgedAlike_planes {b b' : Board} (hmen : b'.men = b.men) (hturn : b'.turn = b.turn)
    (layout layout' : CastlingLayout) : (b.planes layout).JudgedAlike (b'.planes layout') := by
  have hlength (b : Board) (layout : CastlingLayout) :
      Planes.pieceCount ≤ (b.planes layout).length := by
    rw [Board.length_planes]
    decide
  refine Planes.judgedAlike_of_men (hlength b layout) (hlength b' layout') ?_
  rw [Board.men_planes, Board.men_planes, Board.shown_congr hmen hturn]

/-- Nothing but the squares on the piece planes matters. Of a board, drawn in any supported format,
only the men and the side to move matter. -/
theorem evaluation_readsSquaresAlone :
    (∀ ps qs : Planes, 12 ≤ ps.length → 12 ≤ qs.length → ps.SameSquares qs →
      ps.JudgedAlike qs) ∧
      ∀ b b' : Board, b'.men = b.men → b'.turn = b.turn →
        ∀ f ∈ supportedFormats, ∀ f' ∈ supportedFormats,
          ∃ ps ps', b.encode f = .ok ps ∧ b'.encode f' = .ok ps' ∧ ps.JudgedAlike ps' := by
  constructor
  · intro ps qs hps hqs hsame
    exact Planes.judgedAlike_of_men hps hqs (Planes.men_congr hsame)
  · intro b b' hmen hturn f hf f' hf'
    obtain ⟨layout, hl⟩ := mem_supportedFormats_iff.mp hf
    obtain ⟨layout', hl'⟩ := mem_supportedFormats_iff.mp hf'
    exact ⟨_, _, encode_eq hl, encode_eq hl', Board.judgedAlike_planes hmen hturn layout layout'⟩

/-- A queen and the king on e1 against the king on e8. -/
def queenAgainstKing : Planes :=
  .ofMasks
    (fun
      | .queen => 0x8
      | .king => 0x10
      | _ => 0)
    (fun
      | .king => 0x1000000000000000
      | _ => 0)

/-- The same squares on planes that carry no number, with a further plane. -/
def queenAgainstKingNaN : Planes :=
  queenAgainstKing.map (fun p => ⟨p.mask, Float32.ofBits 0x7fc00000⟩) ++ [.filled 3]

/-- The men at the start of a game, but at its end: no rights are left and the clock has run out. -/
def Board.startWorn : Board where
  men := startMen
  turn := .white
  whiteRights := ⟨none, none⟩
  blackRights := ⟨none, none⟩
  enPassant := some .d
  halfmoves := ⟨100, by decide⟩
  moveNumber := 90

theorem evaluation_readsSquaresAlone_worn :
    12 ≤ queenAgainstKing.length ∧ 12 ≤ queenAgainstKingNaN.length ∧
      queenAgainstKing.SameSquares queenAgainstKingNaN ∧
      queenAgainstKing.JudgedAlike queenAgainstKingNaN ∧
      Board.startWorn.men = Board.start.men ∧ Board.startWorn.turn = Board.start.turn ∧
      InputFormat.classical112 ∈ supportedFormats ∧
      InputFormat.classical112WithCastlingPlane ∈ supportedFormats ∧
      ∃ ps ps', Board.start.encode .classical112 = .ok ps ∧
        Board.startWorn.encode .classical112WithCastlingPlane = .ok ps' ∧ ps.JudgedAlike ps' := by
  obtain ⟨hplanes, hboards⟩ := evaluation_readsSquaresAlone
  have hsame : queenAgainstKing.SameSquares queenAgainstKingNaN := by
    unfold Planes.SameSquares
    decide
  have hf : InputFormat.classical112 ∈ supportedFormats := by decide
  have hf' : InputFormat.classical112WithCastlingPlane ∈ supportedFormats := by decide
  have hmen : Board.startWorn.men = Board.start.men := rfl
  have hturn : Board.startWorn.turn = Board.start.turn := rfl
  exact ⟨by decide, by decide, hsame, hplanes _ _ (by decide) (by decide) hsame, hmen, hturn, hf,
    hf', hboards _ _ hmen hturn _ hf _ hf'⟩

end PieceSquare
