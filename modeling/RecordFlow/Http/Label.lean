import RecordFlow.Text.Composition
import RecordFlow.Text.Mark
import RecordFlow.Text.Punycode

/-! # Labels of names

A label is made of letters, digits, marks and hyphens, composed and in one direction; some
characters may only stand beside certain others. A label beyond ASCII is written in ASCII behind a
mark.
-/
namespace RecordFlow.Http.Label
open Text

/-! ## Characters of labels

Small letters, digits and marks of all scripts that neither the folding of letter case nor the
composition of compatible characters changes.
-/

def plainRanges : Ranges := [
  (45, 45), (48, 57), (97, 122), (223, 246), (248, 255), (309, 309), (311, 312), (392, 392),
  (396, 397), (402, 402), (405, 405), (409, 411), (414, 414), (424, 424), (426, 427), (429, 429),
  (432, 432), (441, 443), (445, 451), (476, 477), (495, 496), (501, 501), (563, 569), (572, 572),
  (575, 576), (578, 578), (591, 687), (697, 705), (710, 721), (768, 831), (834, 834), (838, 846),
  (848, 879), (887, 887), (891, 893), (912, 912), (940, 974), (1011, 1011), (1016, 1016),
  (1019, 1020), (1072, 1119), (1155, 1159), (1230, 1231), (1369, 1369), (1376, 1414), (1416, 1416),
  (1425, 1469), (1471, 1471), (1473, 1474), (1476, 1477), (1479, 1479), (1488, 1514), (1519, 1522),
  (1552, 1562), (1568, 1599), (1601, 1631), (1646, 1652), (1657, 1747), (1749, 1756), (1759, 1768),
  (1770, 1775), (1786, 1791), (1808, 1866), (1869, 1969), (1984, 2037), (2045, 2045), (2048, 2093),
  (2112, 2139), (2144, 2154), (2160, 2183), (2185, 2190), (2200, 2273), (2275, 2391), (2400, 2403),
  (2406, 2415), (2417, 2435), (2437, 2444), (2447, 2448), (2451, 2472), (2474, 2480), (2482, 2482),
  (2486, 2489), (2492, 2500), (2503, 2504), (2507, 2510), (2519, 2519), (2528, 2531), (2534, 2545),
  (2561, 2563), (2565, 2570), (2575, 2576), (2579, 2600), (2602, 2608), (2610, 2610), (2613, 2613),
  (2616, 2617), (2620, 2620), (2622, 2626), (2631, 2632), (2635, 2637), (2641, 2641), (2652, 2652),
  (2662, 2677), (2689, 2691), (2693, 2701), (2703, 2705), (2707, 2728), (2730, 2736), (2738, 2739),
  (2741, 2745), (2748, 2757), (2759, 2761), (2763, 2765), (2768, 2768), (2784, 2787), (2790, 2799),
  (2809, 2815), (2817, 2819), (2821, 2828), (2831, 2832), (2835, 2856), (2858, 2864), (2866, 2867),
  (2869, 2873), (2876, 2884), (2887, 2888), (2891, 2893), (2901, 2903), (2911, 2915), (2918, 2927),
  (2929, 2929), (2946, 2947), (2949, 2954), (2958, 2960), (2962, 2965), (2969, 2970), (2972, 2972),
  (2974, 2975), (2979, 2980), (2984, 2986), (2990, 3001), (3006, 3010), (3014, 3016), (3018, 3021),
  (3024, 3024), (3031, 3031), (3046, 3055), (3072, 3084), (3086, 3088), (3090, 3112), (3114, 3129),
  (3132, 3140), (3142, 3144), (3146, 3149), (3157, 3158), (3160, 3162), (3165, 3165), (3168, 3171),
  (3174, 3183), (3200, 3203), (3205, 3212), (3214, 3216), (3218, 3240), (3242, 3251), (3253, 3257),
  (3260, 3268), (3270, 3272), (3274, 3277), (3285, 3286), (3293, 3294), (3296, 3299), (3302, 3311),
  (3313, 3314), (3328, 3340), (3342, 3344), (3346, 3396), (3398, 3400), (3402, 3406), (3412, 3415),
  (3423, 3427), (3430, 3439), (3450, 3455), (3457, 3459), (3461, 3478), (3482, 3505), (3507, 3515),
  (3517, 3517), (3520, 3526), (3530, 3530), (3535, 3540), (3542, 3542), (3544, 3551), (3558, 3567),
  (3570, 3571), (3585, 3634), (3636, 3642), (3648, 3662), (3664, 3673), (3713, 3714), (3716, 3716),
  (3718, 3722), (3724, 3747), (3749, 3749), (3751, 3762), (3764, 3773), (3776, 3780), (3782, 3782),
  (3784, 3789), (3792, 3801), (3806, 3807), (3840, 3840), (3851, 3851), (3864, 3865), (3872, 3881),
  (3902, 3906), (3908, 3911), (3913, 3916), (3918, 3921), (3923, 3926), (3928, 3931), (3933, 3944),
  (3946, 3948), (3953, 3954), (3956, 3956), (3962, 3968), (3970, 3972), (3974, 3986), (3988, 3991),
  (3993, 3996), (3998, 4001), (4003, 4006), (4008, 4011), (4013, 4024), (4026, 4028), (4038, 4038),
  (4096, 4169), (4176, 4253), (4304, 4346), (4349, 4351), (4608, 4680), (4682, 4685), (4688, 4694),
  (4696, 4696), (4698, 4701), (4704, 4744), (4746, 4749), (4752, 4784), (4786, 4789), (4792, 4798),
  (4800, 4800), (4802, 4805), (4808, 4822), (4824, 4880), (4882, 4885), (4888, 4954), (4957, 4959),
  (4992, 5007), (5024, 5109), (5121, 5740), (5743, 5759), (5761, 5786), (5792, 5866), (5873, 5880),
  (5888, 5909), (5919, 5940), (5952, 5971), (5984, 5996), (5998, 6000), (6002, 6003), (6016, 6067),
  (6070, 6099), (6103, 6103), (6108, 6109), (6112, 6121), (6160, 6169), (6176, 6264), (6272, 6314),
  (6320, 6389), (6400, 6430), (6432, 6443), (6448, 6459), (6470, 6509), (6512, 6516), (6528, 6571),
  (6576, 6601), (6608, 6617), (6656, 6683), (6688, 6750), (6752, 6780), (6783, 6793), (6800, 6809),
  (6823, 6823), (6832, 6845), (6847, 6862), (6912, 6988), (6992, 7001), (7019, 7027), (7040, 7155),
  (7168, 7223), (7232, 7241), (7245, 7293), (7376, 7378), (7380, 7418), (7424, 7467), (7471, 7471),
  (7483, 7483), (7502, 7502), (7531, 7543), (7545, 7578), (7616, 7679), (7829, 7833), (7836, 7837),
  (7935, 7943), (7952, 7957), (7968, 7975), (7984, 7991), (8000, 8005), (8016, 8023), (8032, 8039),
  (8112, 8113), (8118, 8118), (8134, 8134), (8144, 8146), (8150, 8151), (8160, 8162), (8164, 8167),
  (8182, 8182), (8526, 8526), (8580, 8580), (11312, 11359), (11361, 11361), (11365, 11366),
  (11377, 11377), (11379, 11380), (11382, 11387), (11491, 11492), (11500, 11500), (11502, 11505),
  (11507, 11507), (11520, 11557), (11559, 11559), (11565, 11565), (11568, 11623), (11647, 11670),
  (11680, 11686), (11688, 11694), (11696, 11702), (11704, 11710), (11712, 11718), (11720, 11726),
  (11728, 11734), (11736, 11742), (11744, 11775), (11823, 11823), (12293, 12295), (12330, 12333),
  (12348, 12348), (12353, 12438), (12441, 12442), (12445, 12446), (12449, 12538), (12540, 12542),
  (12549, 12591), (12704, 12735), (12784, 12799), (13312, 19903), (19968, 42124), (42192, 42237),
  (42240, 42508), (42512, 42539), (42605, 42607), (42612, 42621), (42654, 42725), (42736, 42737),
  (42775, 42783), (42799, 42801), (42865, 42872), (42887, 42888), (42892, 42892), (42894, 42895),
  (42897, 42897), (42899, 42901), (42927, 42927), (42998, 42999), (43002, 43047), (43052, 43052),
  (43072, 43123), (43136, 43205), (43216, 43225), (43232, 43255), (43259, 43259), (43261, 43309),
  (43312, 43347), (43392, 43456), (43471, 43481), (43488, 43518), (43520, 43574), (43584, 43597),
  (43600, 43609), (43616, 43638), (43642, 43714), (43739, 43741), (43744, 43759), (43762, 43766),
  (43777, 43782), (43785, 43790), (43793, 43798), (43808, 43814), (43816, 43822), (43824, 43866),
  (43872, 43880), (43968, 44010), (44012, 44013), (44016, 44025), (44032, 55203), (64014, 64015),
  (64017, 64017), (64019, 64020), (64035, 64036), (64039, 64041), (64286, 64286), (65056, 65071),
  (65139, 65139), (65536, 65547), (65549, 65574), (65576, 65594), (65596, 65597), (65599, 65613),
  (65616, 65629), (65664, 65786), (66045, 66045), (66176, 66204), (66208, 66256), (66272, 66272),
  (66304, 66335), (66349, 66368), (66370, 66377), (66384, 66426), (66432, 66461), (66464, 66499),
  (66504, 66511), (66600, 66717), (66720, 66729), (66776, 66811), (66816, 66855), (66864, 66915),
  (66967, 66977), (66979, 66993), (66995, 67001), (67003, 67004), (67072, 67382), (67392, 67413),
  (67424, 67431), (67456, 67456), (67584, 67589), (67592, 67592), (67594, 67637), (67639, 67640),
  (67644, 67644), (67647, 67669), (67680, 67702), (67712, 67742), (67808, 67826), (67828, 67829),
  (67840, 67861), (67872, 67897), (67968, 68023), (68030, 68031), (68096, 68099), (68101, 68102),
  (68108, 68115), (68117, 68119), (68121, 68149), (68152, 68154), (68159, 68159), (68192, 68220),
  (68224, 68252), (68288, 68295), (68297, 68326), (68352, 68405), (68416, 68437), (68448, 68466),
  (68480, 68497), (68608, 68680), (68800, 68850), (68864, 68903), (68912, 68921), (69248, 69289),
  (69291, 69292), (69296, 69297), (69376, 69404), (69415, 69415), (69424, 69456), (69488, 69509),
  (69552, 69572), (69600, 69622), (69632, 69702), (69734, 69749), (69759, 69818), (69826, 69826),
  (69840, 69864), (69872, 69881), (69888, 69940), (69942, 69951), (69956, 69959), (69968, 70003),
  (70006, 70006), (70016, 70084), (70089, 70092), (70094, 70106), (70108, 70108), (70144, 70161),
  (70163, 70199), (70206, 70206), (70272, 70278), (70280, 70280), (70282, 70285), (70287, 70301),
  (70303, 70312), (70320, 70378), (70384, 70393), (70400, 70403), (70405, 70412), (70415, 70416),
  (70419, 70440), (70442, 70448), (70450, 70451), (70453, 70457), (70459, 70468), (70471, 70472),
  (70475, 70477), (70480, 70480), (70487, 70487), (70493, 70499), (70502, 70508), (70512, 70516),
  (70656, 70730), (70736, 70745), (70750, 70753), (70784, 70853), (70855, 70855), (70864, 70873),
  (71040, 71093), (71096, 71104), (71128, 71133), (71168, 71232), (71236, 71236), (71248, 71257),
  (71296, 71352), (71360, 71369), (71424, 71450), (71453, 71467), (71472, 71481), (71488, 71494),
  (71680, 71738), (71872, 71913), (71935, 71942), (71945, 71945), (71948, 71955), (71957, 71958),
  (71960, 71989), (71991, 71992), (71995, 72003), (72016, 72025), (72096, 72103), (72106, 72151),
  (72154, 72161), (72163, 72164), (72192, 72254), (72263, 72263), (72272, 72345), (72349, 72349),
  (72368, 72440), (72704, 72712), (72714, 72758), (72760, 72768), (72784, 72793), (72818, 72847),
  (72850, 72871), (72873, 72886), (72960, 72966), (72968, 72969), (72971, 73014), (73018, 73018),
  (73020, 73021), (73023, 73031), (73040, 73049), (73056, 73061), (73063, 73064), (73066, 73102),
  (73104, 73105), (73107, 73112), (73120, 73129), (73440, 73462), (73648, 73648), (73728, 74649),
  (74880, 75075), (77712, 77808), (77824, 78894), (82944, 83526), (92160, 92728), (92736, 92766),
  (92768, 92777), (92784, 92862), (92864, 92873), (92880, 92909), (92912, 92916), (92928, 92982),
  (92992, 92995), (93008, 93017), (93027, 93047), (93053, 93071), (93792, 93823), (93952, 94026),
  (94031, 94087), (94095, 94111), (94176, 94177), (94179, 94180), (94192, 94193), (94208, 100343),
  (100352, 101589), (101632, 101640), (110576, 110579), (110581, 110587), (110589, 110590),
  (110592, 110882), (110928, 110930), (110948, 110951), (110960, 111355), (113664, 113770),
  (113776, 113788), (113792, 113800), (113808, 113817), (113821, 113822), (118528, 118573),
  (118576, 118598), (121344, 121398), (121403, 121452), (121461, 121461), (121476, 121476),
  (121499, 121503), (121505, 121519), (122624, 122654), (122880, 122886), (122888, 122904),
  (122907, 122913), (122915, 122916), (122918, 122922), (123136, 123180), (123184, 123197),
  (123200, 123209), (123214, 123214), (123536, 123566), (123584, 123641), (124896, 124902),
  (124904, 124907), (124909, 124910), (124912, 124926), (124928, 125124), (125136, 125142),
  (125218, 125259), (125264, 125273), (131072, 173791), (173824, 177976), (177984, 178205),
  (178208, 183969), (183984, 191456), (196608, 201546)]

/-- Ranges of capital and small letters in turn, which begin and end with a small one. -/
def alternatingRanges : Ranges := [
  (257, 305), (314, 318), (322, 328), (331, 375), (378, 384), (387, 389), (417, 421), (436, 438),
  (462, 474), (479, 493), (505, 561), (583, 589), (748, 750), (881, 883), (983, 1007), (1121, 1153),
  (1163, 1215), (1218, 1228), (1233, 1327), (2556, 2558), (3893, 3897), (7681, 7827), (7839, 7933),
  (8048, 8060), (11368, 11372), (11393, 11489), (42561, 42603), (42623, 42651), (42787, 42797),
  (42803, 42863), (42874, 42876), (42879, 42885), (42903, 42921), (42933, 42947), (42952, 42954),
  (42961, 42969), (64031, 64033)]

/-! ## Labels and their form in ASCII -/

def isPlain (c : Char) : Bool :=
  c = '-' || plainRanges.has c.toNat || alternatingRanges.hasEveryOther c.toNat

def greekRanges : Ranges := [
  (0x371, 0x3e1), (0x3f3, 0x3fc), (0x1d26, 0x1d2a), (0x1f00, 0x1ff6), (0xab65, 0xab65)]

def hebrewRanges : Ranges := [(0x591, 0x5f4), (0xfb1e, 0xfb1e)]

def japaneseRanges : Ranges := [
  (0x3005, 0x3005), (0x3007, 0x3007), (0x3041, 0x3096), (0x309d, 0x309e), (0x30a1, 0x30fa),
  (0x30fd, 0x30fe), (0x31f0, 0x31ff), (0x3400, 0x9fff), (0xfa0e, 0xfa29), (0x16fe3, 0x16fe3),
  (0x16ff0, 0x16ff1), (0x1aff0, 0x1b122), (0x1b150, 0x1b152), (0x1b164, 0x1b167),
  (0x20000, 0x3134a)]

def isArabicIndic (c : Char) : Bool := 0x660 ≤ c.toNat && c.toNat ≤ 0x669

def isEasternArabic (c : Char) : Bool := 0x6f0 ≤ c.toNat && c.toNat ≤ 0x6f9

def vowelKiller : Nat := 9

/-- A character that joins nothing to nothing: behind a mark that takes a vowel, or between letters
that would join. -/
def mayPart (before after : List Char) : Bool :=
  before.head?.any (markClass · = vowelKiller)
    || ((before.dropWhile joinsThrough).head?.any joinsAfter
      && (after.dropWhile joinsThrough).head?.any joinsBefore)

/-- Whether a character that stands only beside certain others may stand here; `before` has the
nearest first. -/
def mayStand (label before : List Char) (c : Char) (after : List Char) : Bool :=
  match c.toNat with
  | 0x200c => mayPart before after
  | 0x200d => before.head?.any (markClass · = vowelKiller)
  | 0xb7 => before.head? = some 'l' && after.head? = some 'l'
  | 0x375 => after.head?.any (greekRanges.has ·.toNat)
  | 0x5f3 | 0x5f4 => before.head?.any (hebrewRanges.has ·.toNat)
  | 0x30fb => label.any (japaneseRanges.has ·.toNat)
  | _ =>
    (isArabicIndic c && !label.any isEasternArabic)
      || (isEasternArabic c && !label.any isArabicIndic)

def allStand (label before : List Char) : List Char → Bool
  | [] => true
  | c :: rest =>
    (isPlain c || mayStand label before c rest) && allStand label (c :: before) rest

/-- Hyphens stand inside only, and no two of them behind two characters. -/
def hyphensStand (label : List Char) : Bool :=
  label.head? != some '-' && label.getLast? != some '-' && (label.drop 2).take 2 != ['-', '-']

/-- Whether letters make a label, before it is written in ASCII. -/
def isWellFormed (label : List Char) : Bool :=
  isComposed label && hyphensStand label && label.head?.any (!isMark ·)
    && allStand label [] label && isOneWay label

def asciiMark : List Char := ['x', 'n', '-', '-']

def marked? (label : List Char) : Option (List Char) :=
  let written := label.drop asciiMark.length
  if written.isEmpty || written.getLast? = some '-' then none else Punycode.decode? written

def isAscii (label : List Char) : Bool := label.all (·.toNat < 0x80)

def plain (label : List Char) : List Char :=
  if isAscii label then label else asciiMark ++ Punycode.encode label

def longest : Nat := 63

def isValid (label : List Char) : Bool :=
  (plain label).length ≤ longest
    && (if isAscii label && label.take asciiMark.length = asciiMark then
        (marked? label).any isWellFormed
      else isWellFormed label)

end RecordFlow.Http.Label
