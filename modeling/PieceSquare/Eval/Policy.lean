set_option autoImplicit false

/-! # The move prior

The policy head of the evaluator: one logarithm of a probability for each of 1858 move numbers,
the same for every position. No probability is above 1, so every logarithm is negative or the
negative zero, and the table holds their magnitudes in units of 0.00001.
-/

namespace PieceSquare

/-- The number of moves that have a place in the policy head. -/
def policySize : Nat := 1858

set_option maxRecDepth 16000 in
/-- The magnitudes of the prior's logarithms in units of 0.00001, by move number. -/
def logMagnitudes : Vector Nat 1858 := #v[
  327805, 255371, 246718, 259232, 274631, 259647, 247084, 365601, 209820, 143034, 351708, 126485,
  236647, 294045, 240305, 270842, 252492, 257050, 248690, 221723, 235995, 197193, 193535, 293369,
  262881, 261207, 272703, 271673, 252759, 249393, 222701, 263556, 212130, 182262, 350585, 287152,
  157311, 245245, 288140, 258226, 262983, 285953, 263080, 308031, 213966, 285110, 212827, 324672,
  285159, 267270, 298899, 306657, 271692, 268217, 230527, 155012, 270463, 265240, 178385, 258179,
  194060, 298342, 157773, 249979, 294035, 223586, 280895, 283289, 276390, 454929, 225179, 214827,
  316414, 354998, 306761, 311185, 334247, 305679, 283999, 223640, 266808, 311225, 274733, 183896,
  295630, 193498, 340767, 160610, 295001, 324019, 287622, 388308, 314287, 382922, 298526, 276060,
  211013, 255618, 316483, 289776, 300680, 340576, 292824, 108351, 218712, 340693, 331301, 208158,
  203667, 236173, 176878, 300632, 205124, 229763, 266771, 303798, 247170, 267618, 286332, 316487,
  263969, 214089, 270953, 294945, 252531, 231311, 239041, 238423, 279781, 221194, 183517, 231660,
  119398, 270912, 219063, 167444, 292405, 189225, 319352, 253407, 278346, 233611, 286697, 423423,
  288961, 262569, 195808, 229278, 236494, 233724, 240053, 256087, 283420, 353338, 218170, 213917,
  204813, 266216, 212418, 69842, 265481, 379830, 208032, 271945, 210865, 259930, 209607, 259304,
  196199, 221306, 200576, 220327, 230800, 218593, 214309, 243553, 397334, 346230, 139132, 153451,
  293402, 216152, 120217, 335988, 223190, 286953, 225928, 266984, 210801, 255898, 192820, 237356,
  155857, 203181, 228908, 217008, 179786, 211051, 225579, 225968, 221662, 193364, 175094, 166550,
  272936, 164063, 161075, 286833, 178174, 257420, 209685, 258283, 192704, 248349, 169953, 259193,
  176127, 201200, 294340, 238107, 308673, 199493, 233547, 210375, 235984, 229878, 196549, 178870,
  165615, 277078, 280018, 227486, 153731, 204792, 332063, 171385, 284901, 234161, 299670, 223259,
  302214, 193832, 277222, 181773, 268912, 335246, 298197, 277642, 282059, 261695, 279896, 240170,
  251546, 262934, 231413, 202635, 192560, 299387, 257964, 224623, 252376, 191827, 334948, 256071,
  165398, 216174, 318252, 282216, 351838, 264710, 388911, 221975, 390789, 214583, 395923, 295078,
  262058, 257345, 303102, 259558, 261131, 231295, 228283, 243661, 233765, 213112, 271698, 217856,
  211073, 233474, 228725, 300949, 264762, 104994, 269146, 290213, 323718, 276631, 325924, 251251,
  372328, 233565, 208714, 321947, 285503, 263804, 284485, 352504, 255603, 260966, 276627, 233495,
  205168, 227313, 222733, 238077, 258201, 168292, 227004, 234945, 315454, 229580, 200001, 228900,
  342943, 326178, 278328, 365967, 376857, 282601, 231787, 218220, 266768, 223966, 230392, 229266,
  316170, 221344, 227064, 244117, 236266, 194422, 193731, 212489, 201889, 151826, 297232, 176259,
  273162, 250737, 217278, 313102, 252260, 277223, 261413, 256946, 258251, 245132, 252211, 231542,
  188442, 220100, 268182, 246038, 337642, 184869, 197638, 204854, 216895, 211686, 175997, 236928,
  171232, 230947, 262440, 289605, 320371, 187585, 372998, 235252, 322560, 232038, 296892, 229096,
  257950, 206247, 279851, 175405, 194448, 201396, 233409, 149118, 163272, 172012, 175873, 182517,
  188277, 151172, 195535, 163343, 266199, 263170, 211238, 326804, 248582, 196174, 238943, 184035,
  243613, 179448, 244656, 170873, 223079, 307955, 269291, 212766, 208189, 207082, 211996, 229495,
  234251, 208395, 199731, 186997, 172110, 269204, 174916, 203069, 218267, 232030, 260985, 209827,
  255477, 183743, 257651, 175630, 252175, 380455, 250695, 312213, 278579, 255680, 216556, 233857,
  261161, 253169, 226087, 260362, 239008, 221694, 207617, 199662, 242189, 287815, 215145, 229009,
  310180, 287811, 245276, 309524, 279113, 300962, 239040, 307481, 197233, 256667, 298239, 448054,
  251603, 368408, 280978, 402947, 230009, 218421, 231835, 293369, 246494, 211828, 210616, 228425,
  231544, 212953, 209662, 337759, 230327, 255404, 179951, 290035, 311283, 339870, 244633, 298232,
  280023, 248821, 288594, 201654, 282274, 203482, 278492, 326634, 324195, 272334, 299127, 319865,
  304587, 251103, 231969, 255876, 255748, 258753, 247201, 215586, 212523, 240960, 237746, 245204,
  289473, 260158, 242614, 246064, 234556, 324733, 244070, 259262, 249762, 337558, 375832, 248748,
  380084, 219600, 379062, 204098, 340081, 318389, 268514, 322397, 292402, 290829, 252897, 213440,
  208583, 284989, 235185, 254278, 246315, 201244, 196864, 241030, 247213, 247850, 183279, 275409,
  239579, 291434, 295888, 245982, 254589, 272006, 342412, 310157, 277292, 385904, 318310, 229223,
  219258, 287856, 352170, 238993, 464160, 325123, 315322, 215700, 191129, 205896, 387007, 231107,
  238624, 248424, 248776, 192920, 200539, 258454, 272011, 208597, 233988, 238105, 378748, 294846,
  281264, 303018, 392556, 345293, 277133, 305216, 255676, 284859, 282938, 203113, 242253, 285646,
  217388, 381336, 256566, 172219, 179065, 217955, 209137, 220016, 220045, 241179, 233142, 168436,
  200165, 240213, 178619, 297991, 203122, 281125, 270508, 275108, 293190, 282492, 293223, 289579,
  266369, 309179, 196086, 233415, 270489, 209119, 174156, 150930, 171216, 162041, 175809, 180507,
  200153, 209758, 210626, 147714, 175447, 144928, 273195, 270826, 244281, 219051, 265505, 211028,
  254282, 193472, 245693, 174596, 218828, 247454, 235589, 249861, 231872, 237263, 217848, 216253,
  249976, 237605, 241639, 231335, 225894, 249608, 227300, 219441, 177622, 208721, 251806, 267657,
  287500, 230523, 255959, 186961, 264929, 216811, 243415, 277701, 221105, 218239, 238285, 210211,
  201523, 190136, 196068, 195664, 199073, 210522, 222135, 206296, 218416, 201866, 193989, 216718,
  168751, 205182, 270005, 214289, 219256, 250235, 196130, 259285, 186936, 270564, 243371, 298850,
  271071, 327384, 233446, 288198, 254575, 356300, 235963, 214711, 240189, 236698, 225897, 224260,
  202243, 233412, 238856, 252751, 229562, 300430, 242419, 258575, 173016, 244198, 369007, 307589,
  242086, 278920, 315726, 219145, 334312, 214677, 280956, 292510, 254229, 264030, 271488, 323822,
  248303, 298548, 242741, 276244, 219121, 215651, 201607, 265838, 236130, 253446, 214098, 216233,
  240205, 278516, 252937, 288440, 183036, 254164, 168723, 303116, 299693, 260829, 241607, 337414,
  298597, 304663, 239045, 291719, 214359, 283079, 296203, 245407, 296953, 258018, 292212, 237740,
  269961, 249857, 269541, 205724, 200530, 199569, 269320, 215570, 245105, 228308, 195776, 201425,
  257625, 258345, 262041, 166176, 222696, 204774, 295035, 273967, 266807, 264775, 273152, 326277,
  257792, 234761, 310747, 271430, 219213, 338385, 218705, 292125, 270237, 215332, 288140, 303359,
  245556, 230681, 191017, 236607, 324726, 205841, 225753, 229119, 223472, 188084, 205394, 236612,
  249803, 219139, 228553, 256190, 283538, 306285, 297343, 269375, 327634, 395293, 338088, 266496,
  365575, 203979, 248842, 195172, 238707, 200054, 207675, 265607, 179267, 173012, 178330, 199767,
  189127, 207869, 211741, 221555, 220841, 172231, 186764, 205040, 161327, 207715, 172813, 277681,
  237597, 260204, 252153, 252887, 256209, 245590, 200872, 215372, 204436, 210929, 216001, 218408,
  182629, 159137, 179041, 174602, 195427, 193570, 206620, 230465, 222643, 174341, 234048, 147648,
  200384, 261990, 279520, 233649, 232341, 228627, 244100, 189457, 204758, 209793, 217350, 203410,
  220825, 202451, 203058, 195847, 189330, 197147, 203824, 217988, 234249, 215968, 223169, 219646,
  208405, 177245, 160113, 211544, 184474, 243358, 235725, 190083, 244999, 210366, 283689, 219778,
  235656, 309341, 225288, 218496, 249246, 248306, 210760, 243646, 228027, 205602, 209228, 231467,
  235102, 236965, 228385, 223430, 280955, 201406, 205944, 266423, 336453, 196616, 297724, 256376,
  198829, 287213, 225546, 223133, 234622, 206627, 245802, 281215, 235850, 236959, 210324, 305414,
  208282, 212720, 184930, 249966, 212045, 209591, 212239, 234968, 250831, 244692, 236269, 298886,
  193362, 209213, 191741, 279879, 267868, 287130, 205039, 280665, 262980, 220870, 270801, 229572,
  279538, 259612, 237224, 240995, 243122, 266385, 236472, 238147, 233425, 311712, 210967, 203662,
  203923, 263280, 225739, 222740, 207232, 202925, 249691, 261640, 245189, 306772, 201314, 209911,
  210208, 260957, 265398, 301437, 223397, 279582, 293628, 276973, 225740, 277257, 269414, 222957,
  251010, 235899, 271161, 236220, 259277, 230781, 276481, 240330, 295625, 198644, 205878, 209858,
  331837, 209829, 232696, 226766, 199927, 211274, 248006, 256481, 272063, 204023, 219388, 194067,
  356758, 281211, 285422, 223250, 382901, 288714, 295403, 230589, 281081, 250157, 201331, 231846,
  208757, 224877, 220436, 219524, 244630, 253404, 241221, 178045, 186100, 195456, 291479, 190417,
  204239, 217665, 214768, 180827, 187976, 209031, 242031, 181085, 179782, 186047, 276310, 257748,
  266853, 233193, 313747, 280059, 246372, 206273, 313628, 186735, 268757, 206358, 242925, 206488,
  217551, 291779, 219911, 216090, 185600, 209475, 181766, 190589, 200586, 222196, 214874, 172591,
  171773, 265898, 185318, 177443, 245163, 254152, 317261, 224711, 359329, 271727, 204273, 244538,
  196606, 219677, 210418, 219514, 191936, 234775, 177923, 195359, 194258, 177794, 187704, 199098,
  217642, 229225, 237089, 187244, 212701, 175107, 167364, 281174, 269765, 223031, 244985, 200851,
  211672, 203517, 214776, 196397, 228422, 196835, 219551, 142431, 216588, 191686, 182988, 140790,
  210013, 227586, 236663, 247849, 238244, 231331, 197177, 154729, 192420, 174783, 203165, 227844,
  252088, 214359, 203773, 219033, 197465, 229625, 198357, 230993, 222969, 183153, 206495, 195874,
  194909, 185345, 204891, 195348, 203582, 227380, 258700, 239653, 233205, 209450, 216998, 161820,
  195539, 226379, 303213, 207728, 251776, 247519, 229791, 234987, 224506, 210877, 235250, 204200,
  234712, 254766, 233497, 203394, 221075, 275461, 196144, 207166, 189114, 223968, 204990, 205186,
  211099, 253494, 253646, 240433, 215578, 296947, 203372, 174629, 209146, 244340, 263727, 322198,
  224365, 280178, 254007, 227926, 229653, 242813, 236442, 241354, 223481, 237359, 235228, 230055,
  227875, 229771, 271068, 191342, 206465, 189668, 251739, 212320, 214759, 201413, 215683, 253451,
  255102, 219632, 272338, 203579, 181866, 208212, 296693, 276705, 286854, 227029, 285617, 281300,
  209222, 228959, 210792, 219547, 219424, 224168, 213982, 207873, 219986, 201142, 234383, 217709,
  174786, 186743, 178310, 236384, 196474, 215577, 220774, 183719, 191188, 225855, 215191, 242236,
  197486, 168240, 184782, 260395, 246040, 264373, 216081, 256212, 265208, 239016, 196899, 237672,
  198351, 211495, 216868, 213437, 198334, 219722, 222096, 240551, 206782, 176509, 187992, 182811,
  227810, 197049, 212135, 223576, 221375, 187601, 184173, 199004, 226579, 192204, 153696, 194886,
  244900, 242089, 235997, 214107, 286418, 262388, 229501, 182484, 215865, 195074, 207764, 209247,
  214312, 178663, 228377, 224162, 187493, 173979, 176333, 181149, 185047, 196739, 204565, 217483,
  211464, 174922, 171497, 212079, 184692, 147210, 205774, 239308, 239104, 202159, 280460, 261564,
  190047, 233373, 200211, 209685, 216511, 226695, 158998, 213473, 170681, 185100, 177046, 168764,
  181053, 192529, 204866, 217788, 215314, 187239, 195897, 200624, 145804, 281546, 243162, 200752,
  221081, 169523, 227725, 166769, 235110, 166064, 228703, 180589, 222687, 133695, 202242, 190671,
  177027, 159172, 210972, 231081, 243459, 247780, 253299, 240122, 210230, 204187, 185619, 197726,
  229052, 221670, 238972, 189230, 239340, 184567, 254204, 207184, 191261, 236088, 144757, 222705,
  193230, 204882, 185666, 172142, 204852, 218148, 247233, 257103, 266228, 236146, 210443, 217253,
  214498, 213797, 220457, 237645, 242756, 222670, 244680, 206698, 249345, 206786, 223341, 195126,
  239432, 168125, 215135, 240909, 185258, 204602, 186844, 205475, 206725, 201961, 219149, 248149,
  265855, 245480, 219928, 250001, 209398, 213474, 205691, 240477, 235070, 238167, 237739, 211717,
  205558, 242946, 207644, 205003, 176712, 237327, 171331, 213889, 212451, 172115, 199994, 178942,
  202653, 201901, 208600, 201737, 215539, 250478, 243162, 214439, 268323, 182002, 202668, 180627,
  223072, 221415, 224463, 215904, 224000, 215755, 237529, 203020, 218104, 183134, 228310, 180883,
  213150, 190072, 174498, 193361, 176177, 226838, 201060, 207943, 216495, 198597, 204789, 232455,
  222731, 235536, 186481, 195994, 194230, 289104, 196322, 208665, 206367, 205313, 215806, 196075,
  220531, 207987, 155964, 229668, 176706, 208963, 179572, 170844, 177588, 168404, 203263, 190899,
  207456, 222453, 223994, 187902, 184461, 206319, 212513, 190459, 187878, 201137, 264095, 195214,
  195016, 192596, 203448, 181453, 215834, 180823, 228257, 195188, 140515, 221123, 168100, 178388,
  156169, 168899, 158597, 182104, 198177, 211101, 221825, 216944, 179568, 170052, 212545, 176546,
  188302, 188185, 181223, 197519, 180843, 201822, 172436, 216737, 179040, 217144, 197642, 108338,
  209722, 155166, 158894, 167195, 179258, 191590, 207872, 217675, 222306, 234160, 185982, 192394,
  167892, 181541, 197390, 162706, 200251, 144317, 206995, 147269, 200043, 157277, 198441, 165323,
  194968, 132563, 176913, 154770, 145107, 155195, 194615, 222312, 217876, 218266, 222343, 220101,
  217880, 182719, 191612, 171975, 201348, 167986, 200790, 166986, 202330, 173576, 126400, 192733,
  109162, 192195, 152879, 153502, 149707, 127697, 189492, 185442, 212911, 216070, 214918, 217024,
  214222, 198419, 195113, 203801, 168961, 205959, 187573, 210187, 175431, 199309, 143739, 207272,
  132327, 206925, 172851, 146024, 158201, 153596, 151227, 209855, 184421, 186674, 212931, 221361,
  219483, 215773, 201178, 202010, 202189, 200588, 178924, 192400, 219067, 189411, 197522, 136829,
  215518, 142762, 211017, 171658, 156530, 166244, 164796, 165544, 208416, 215704, 186680, 185526,
  218876, 225134, 219230, 191536, 192085, 193780, 189535, 195840, 181512, 205763, 173630, 193331,
  137147, 223705, 134394, 188755, 163986, 161512, 173315, 164673, 187312, 206245, 213445, 211927,
  179248, 181999, 219646, 214435, 160343, 166710, 172212, 175136, 170293, 182036, 165613, 191504,
  179989, 134902, 202918, 133355, 185791, 147304, 139559, 151913, 152185, 186153, 190207, 193224,
  195073, 190642, 160040, 160577, 198155, 160383, 171976, 172190, 169195, 180138, 156773, 193684,
  155984, 198119, 175877, 103839, 199725, 113111, 128862, 139230, 159500, 142287, 183753, 192297,
  194480, 187559, 189891, 151436, 151757, 161669, 177426, 158805, 180870, 150397, 182487, 147130,
  186784, 150498, 193723, 176847, 110059, 200065, 124889, 142306, 155937, 185574, 193160, 196405,
  191510, 199475, 203417, 163940, 146124, 251354, 305328, 23796, 109853, 169816, 88060, 259322,
  272630, 139634, 247534, 293509, 40550, 130283, 231982, 32459, 127121, 206339, 159923, 271933,
  321009, 9426, 133884, 194104, 13521, 130427, 212129, 150089, 255270, 285786, 5611, 82796,
  233907, 21596, 113357, 138835, 129421, 232614, 277775, 70767, 127214, 237027, 26273, 95609,
  141015, 110089, 211966, 240177, 35224, 120165, 140952, 0, 65666, 198171, 105692, 201931,
  243228, 0, 229416, 349818, 46989, 100615, 149424, 123419, 209375, 243350]

/-- The logarithm with a magnitude of `n` units of 0.00001: the binary32 number nearest to it,
with the sign of a logarithm also where it is zero. -/
def logOfUnits (n : Nat) : Float32 := -(Float32.ofScientific n true 5)

/-- The logarithms of the prior probabilities, by move number. -/
def logPolicy : Vector Float32 policySize := logMagnitudes.map logOfUnits

end PieceSquare
