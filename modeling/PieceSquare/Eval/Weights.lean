import PieceSquare.Piece
import PieceSquare.Square

set_option autoImplicit false

/-! # Piece-square weights

What a piece of each kind is worth on each square, seen from its own side of the board: the first
row of a table is the owner's back rank, from a1 to h1, and the last row is the far rank. The king
has two tables, one for each phase of the game. Each decimal stands for the binary32 number
nearest to it.
-/

namespace PieceSquare

/-- One number for each square. -/
abbrev Weights := Vector Float32 64

/-- The phases of the game that the evaluation tells apart. -/
inductive Phase where
  | middlegame
  | endgame
deriving DecidableEq

namespace Weights

/-- The weights of pawns. No pawn stands on the first or the last rank. -/
def pawns : Weights := #v[
       0.0,      0.0,      0.0,      0.0,      0.0,      0.0,      0.0,      0.0,
   0.06662,  0.09583,  0.06643,  0.05536,  0.02236,  0.04939,  0.09071,  0.09352,
   0.08847,  0.08068,  0.07738,  0.05534,  0.06063,  0.06393,  0.08791,  0.09560,
   0.07608,  0.08692,  0.06337,  0.07179,  0.07750,  0.07100,  0.08159,  0.08283,
   0.14966,  0.09968,  0.10335,  0.10362,  0.08502,  0.11313,  0.08158,  0.10561,
   0.13946,  0.12644,  0.12511,  0.11497,  0.13403,  0.09999,  0.12569,  0.14075,
   0.16155,  0.12969,  0.16869,  0.17744,  0.17258,  0.19959,  0.14792,  0.15976,
       0.0,      0.0,      0.0,      0.0,      0.0,      0.0,      0.0,      0.0]

/-- The weights of knights. -/
def knights : Weights := #v[
   0.12549,  0.05358,  0.06001,  0.08798,  0.09084,  0.07007,  0.05983,  0.07110,
   0.03532,  0.08703,  0.13308,  0.07691,  0.11283,  0.06292,  0.08848,  0.05982,
   0.07493,  0.10743,  0.10747,  0.12312,  0.11972,  0.10002,  0.07905,  0.06539,
   0.12239,  0.14532,  0.08843,  0.12103,  0.10833,  0.13367,  0.09003,  0.07247,
   0.12163,  0.16514,  0.15197,  0.11901,  0.14494,  0.13974,  0.12081,  0.10957,
   0.10746,  0.11014,  0.15582,  0.22478,  0.15931,  0.15341,  0.11198,  0.07076,
   0.16764,  0.14658,  0.20785,  0.12558,  0.10667,  0.19004,  0.07353,  0.14162,
   0.03220,  0.06356,  0.13316,  0.12845,  0.14233,  0.19931,  0.07425,  0.20774]

/-- The weights of bishops. -/
def bishops : Weights := #v[
   0.08299,  0.11050,  0.11387,  0.12347,  0.13993,  0.10414,  0.18594,  0.06085,
   0.10235,  0.15733,  0.13970,  0.13631,  0.10189,  0.17399,  0.14002,  0.10948,
   0.14439,  0.13286,  0.15316,  0.13379,  0.13762,  0.13907,  0.11989,  0.12127,
   0.15578,  0.13964,  0.16643,  0.14614,  0.12861,  0.15553,  0.16397,  0.09271,
   0.18553,  0.14091,  0.18698,  0.15018,  0.15590,  0.12655,  0.14573,  0.10276,
   0.19904,  0.15973,  0.13077,  0.14071,  0.15390,  0.11180,  0.10273,  0.19621,
   0.14963,  0.14949,  0.12911,  0.11972,  0.17507,  0.14455,  0.10058,  0.11797,
   0.15988,  0.14084,  0.15436,  0.24262,  0.12838,  0.15251,  0.10853,  0.14240]

/-- The weights of rooks. -/
def rooks : Weights := #v[
   0.19343,  0.22010,  0.19814,  0.20439,  0.20660,  0.20584,  0.19275,  0.20042,
   0.18159,  0.19006,  0.19286,  0.19677,  0.22751,  0.22487,  0.19256,  0.16757,
   0.19102,  0.23716,  0.21167,  0.19747,  0.23355,  0.21321,  0.17478,  0.17279,
   0.15728,  0.16795,  0.26422,  0.22453,  0.24422,  0.21715,  0.19039,  0.24305,
   0.18434,  0.25995,  0.25855,  0.24373,  0.25450,  0.23517,  0.20909,  0.22781,
   0.19181,  0.26571,  0.26481,  0.21262,  0.25547,  0.22559,  0.22430,  0.23066,
   0.28646,  0.25282,  0.25758,  0.21276,  0.25720,  0.26076,  0.25661,  0.24443,
   0.23237,  0.21318,  0.23230,  0.19967,  0.21947,  0.22544,  0.23956,  0.21579]

/-- The weights of queens. -/
def queens : Weights := #v[
   0.23063,  0.23157,  0.25371,  0.27579,  0.27878,  0.23600,  0.29552,  0.29963,
   0.27729,  0.29837,  0.29026,  0.25105,  0.27772,  0.28502,  0.29344,  0.24009,
   0.29366,  0.28859,  0.27538,  0.27713,  0.26159,  0.28383,  0.28749,  0.24996,
   0.35152,  0.26595,  0.26428,  0.30264,  0.29376,  0.29841,  0.27352,  0.29242,
   0.30948,  0.30742,  0.30822,  0.31232,  0.31701,  0.28862,  0.28218,  0.29562,
   0.30423,  0.33840,  0.29070,  0.29734,  0.25349,  0.27276,  0.24977,  0.27319,
   0.27835,  0.35061,  0.33633,  0.29402,  0.32144,  0.33461,  0.29777,  0.28501,
   0.31223,  0.33044,  0.33788,  0.26788,  0.29851,  0.28789,  0.31030,  0.28824]

/-- The weights of the king while there is enough material for an attack. -/
def kings : Weights := #v[
   0.02852,  0.00453, -0.05309, -0.02416, -0.14581, -0.01472, -0.02206,  0.02207,
   0.03712,  0.02324, -0.02501, -0.06653, -0.07605, -0.01135,  0.03666, -0.02999,
   0.00700, -0.02668, -0.06998, -0.02305, -0.03816, -0.00129, -0.08264,  0.01139,
  -0.08866, -0.01720, -0.03161, -0.03092, -0.01507,  0.00172, -0.03457,  0.02657,
  -0.00569,      0.0,  0.00341, -0.00108, -0.01445, -0.02948, -0.00883,  0.00954,
   0.01116, -0.01762,  0.01088, -0.00005, -0.00275,  0.00038,  0.00219,  0.01970,
       0.0, -0.00024, -0.01798, -0.00339, -0.00226,  0.00842,  0.03543, -0.00122,
       0.0,  0.00532,      0.0,  0.00002,  0.00138,  0.00571, -0.00078,  0.00145]

/-- The weights of the king once both sides are down to light material. -/
def kingsEndgame : Weights := #v[
  -0.03908, -0.02837, -0.02194, -0.03649, -0.04754, -0.03390, -0.03172,  0.02852,
  -0.02071, -0.01429, -0.02296, -0.01087, -0.02774, -0.01505, -0.00469, -0.03894,
  -0.03979,  0.02244, -0.00705, -0.01847, -0.00316, -0.04952,  0.01103, -0.00487,
   0.01769,  0.01299,  0.03068, -0.01422, -0.00579, -0.01817,  0.01946, -0.01716,
   0.04860,  0.01099,  0.05517,  0.06880,  0.00036,  0.03165,  0.07524, -0.00409,
   0.01840,  0.04146,  0.04435,  0.09172,  0.08918,  0.03642,  0.04095,  0.00081,
   0.07254,  0.03901,  0.07186,  0.06869,  0.05215,  0.00621,  0.02240, -0.00463,
  -0.01242, -0.02068,  0.01925,  0.03103,  0.02797, -0.02299, -0.01944, -0.04503]

/-- The weights of a kind of piece. Only the king's depend on the phase. -/
def ofKind : Kind → Phase → Weights
  | .pawn, _ => pawns
  | .knight, _ => knights
  | .bishop, _ => bishops
  | .rook, _ => rooks
  | .queen, _ => queens
  | .king, .middlegame => kings
  | .king, .endgame => kingsEndgame

end Weights

end PieceSquare
