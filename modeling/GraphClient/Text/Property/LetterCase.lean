/-!
# Letter case

The code points from U+0080 upwards with the properties Lowercase and Uppercase in Unicode 17, and
the title-case letters. A span is a first code point, a last one and a step; where the two cases of
a script alternate the step is two.
-/

namespace GraphClient.Property

set_option maxRecDepth 8000

/-- The spans of lower-case characters outside ASCII. -/
def lowercaseSpans : List (Nat × Nat × Nat) :=
  [(170, 170, 1), (181, 181, 1), (186, 186, 1), (223, 246, 1), (248, 255, 1), (257, 311, 2),
   (312, 328, 2), (329, 375, 2), (378, 382, 2), (383, 384, 1), (387, 389, 2), (392, 392, 1),
   (396, 397, 1), (402, 402, 1), (405, 405, 1), (409, 411, 1), (414, 414, 1), (417, 421, 2),
   (424, 426, 2), (427, 429, 2), (432, 432, 1), (436, 438, 2), (441, 442, 1), (445, 447, 1),
   (454, 454, 1), (457, 457, 1), (460, 476, 2), (477, 495, 2), (496, 496, 1), (499, 501, 2),
   (505, 563, 2), (564, 569, 1), (572, 572, 1), (575, 576, 1), (578, 578, 1), (583, 591, 2),
   (592, 659, 1), (662, 696, 1), (704, 705, 1), (736, 740, 1), (837, 837, 1), (881, 883, 2),
   (887, 887, 1), (890, 893, 1), (912, 912, 1), (940, 974, 1), (976, 977, 1), (981, 983, 1),
   (985, 1007, 2), (1008, 1011, 1), (1013, 1013, 1), (1016, 1016, 1), (1019, 1020, 1),
   (1072, 1119, 1), (1121, 1153, 2), (1163, 1215, 2), (1218, 1230, 2), (1231, 1327, 2),
   (1376, 1416, 1), (4304, 4346, 1), (4348, 4351, 1), (5112, 5117, 1), (7296, 7304, 1),
   (7306, 7306, 1), (7424, 7615, 1), (7681, 7829, 2), (7830, 7837, 1), (7839, 7935, 2),
   (7936, 7943, 1), (7952, 7957, 1), (7968, 7975, 1), (7984, 7991, 1), (8000, 8005, 1),
   (8016, 8023, 1), (8032, 8039, 1), (8048, 8061, 1), (8064, 8071, 1), (8080, 8087, 1),
   (8096, 8103, 1), (8112, 8116, 1), (8118, 8119, 1), (8126, 8126, 1), (8130, 8132, 1),
   (8134, 8135, 1), (8144, 8147, 1), (8150, 8151, 1), (8160, 8167, 1), (8178, 8180, 1),
   (8182, 8183, 1), (8305, 8305, 1), (8319, 8319, 1), (8336, 8348, 1), (8458, 8458, 1),
   (8462, 8463, 1), (8467, 8467, 1), (8495, 8495, 1), (8500, 8500, 1), (8505, 8505, 1),
   (8508, 8509, 1), (8518, 8521, 1), (8526, 8526, 1), (8560, 8575, 1), (8580, 8580, 1),
   (9424, 9449, 1), (11312, 11359, 1), (11361, 11361, 1), (11365, 11366, 1), (11368, 11372, 2),
   (11377, 11379, 2), (11380, 11382, 2), (11383, 11389, 1), (11393, 11491, 2),
   (11492, 11492, 1), (11500, 11502, 2), (11507, 11507, 1), (11520, 11557, 1),
   (11559, 11559, 1), (11565, 11565, 1), (42561, 42605, 2), (42625, 42651, 2),
   (42652, 42653, 1), (42787, 42799, 2), (42800, 42801, 1), (42803, 42863, 2),
   (42864, 42872, 1), (42874, 42876, 2), (42879, 42887, 2), (42892, 42894, 2),
   (42897, 42899, 2), (42900, 42901, 1), (42903, 42921, 2), (42927, 42927, 1),
   (42933, 42947, 2), (42952, 42954, 2), (42957, 42971, 2), (42993, 42996, 1),
   (42998, 43000, 2), (43001, 43002, 1), (43824, 43866, 1), (43868, 43881, 1),
   (43888, 43967, 1), (64256, 64262, 1), (64275, 64279, 1), (65345, 65370, 1),
   (66600, 66639, 1), (66776, 66811, 1), (66967, 66977, 1), (66979, 66993, 1),
   (66995, 67001, 1), (67003, 67004, 1), (67456, 67456, 1), (67459, 67461, 1),
   (67463, 67504, 1), (67506, 67514, 1), (68800, 68850, 1), (68976, 68997, 1),
   (71872, 71903, 1), (93792, 93823, 1), (93883, 93907, 1), (119834, 119859, 1),
   (119886, 119892, 1), (119894, 119911, 1), (119938, 119963, 1), (119990, 119993, 1),
   (119995, 119997, 2), (119998, 120003, 1), (120005, 120015, 1), (120042, 120067, 1),
   (120094, 120119, 1), (120146, 120171, 1), (120198, 120223, 1), (120250, 120275, 1),
   (120302, 120327, 1), (120354, 120379, 1), (120406, 120431, 1), (120458, 120485, 1),
   (120514, 120538, 1), (120540, 120545, 1), (120572, 120596, 1), (120598, 120603, 1),
   (120630, 120654, 1), (120656, 120661, 1), (120688, 120712, 1), (120714, 120719, 1),
   (120746, 120770, 1), (120772, 120777, 1), (120779, 120779, 1), (122624, 122633, 1),
   (122635, 122654, 1), (122661, 122666, 1), (122928, 122989, 1), (125218, 125251, 1)]

/-- The spans of upper-case characters outside ASCII. -/
def uppercaseSpans : List (Nat × Nat × Nat) :=
  [(192, 214, 1), (216, 222, 1), (256, 310, 2), (313, 327, 2), (330, 376, 2), (377, 381, 2),
   (385, 386, 1), (388, 390, 2), (391, 393, 2), (394, 395, 1), (398, 401, 1), (403, 404, 1),
   (406, 408, 1), (412, 413, 1), (415, 416, 1), (418, 422, 2), (423, 425, 2), (428, 430, 2),
   (431, 433, 2), (434, 435, 1), (437, 439, 2), (440, 440, 1), (444, 444, 1), (452, 452, 1),
   (455, 455, 1), (458, 458, 1), (461, 475, 2), (478, 494, 2), (497, 497, 1), (500, 502, 2),
   (503, 504, 1), (506, 562, 2), (570, 571, 1), (573, 574, 1), (577, 579, 2), (580, 582, 1),
   (584, 590, 2), (880, 882, 2), (886, 886, 1), (895, 895, 1), (902, 904, 2), (905, 906, 1),
   (908, 910, 2), (911, 913, 2), (914, 929, 1), (931, 939, 1), (975, 975, 1), (978, 980, 1),
   (984, 1006, 2), (1012, 1012, 1), (1015, 1017, 2), (1018, 1018, 1), (1021, 1071, 1),
   (1120, 1152, 2), (1162, 1216, 2), (1217, 1229, 2), (1232, 1326, 2), (1329, 1366, 1),
   (4256, 4293, 1), (4295, 4295, 1), (4301, 4301, 1), (5024, 5109, 1), (7305, 7305, 1),
   (7312, 7354, 1), (7357, 7359, 1), (7680, 7828, 2), (7838, 7934, 2), (7944, 7951, 1),
   (7960, 7965, 1), (7976, 7983, 1), (7992, 7999, 1), (8008, 8013, 1), (8025, 8031, 2),
   (8040, 8047, 1), (8120, 8123, 1), (8136, 8139, 1), (8152, 8155, 1), (8168, 8172, 1),
   (8184, 8187, 1), (8450, 8450, 1), (8455, 8455, 1), (8459, 8461, 1), (8464, 8466, 1),
   (8469, 8469, 1), (8473, 8477, 1), (8484, 8490, 2), (8491, 8493, 1), (8496, 8499, 1),
   (8510, 8511, 1), (8517, 8517, 1), (8544, 8559, 1), (8579, 8579, 1), (9398, 9423, 1),
   (11264, 11311, 1), (11360, 11362, 2), (11363, 11364, 1), (11367, 11373, 2),
   (11374, 11376, 1), (11378, 11378, 1), (11381, 11381, 1), (11390, 11392, 1),
   (11394, 11490, 2), (11499, 11501, 2), (11506, 11506, 1), (42560, 42604, 2),
   (42624, 42650, 2), (42786, 42798, 2), (42802, 42862, 2), (42873, 42877, 2),
   (42878, 42886, 2), (42891, 42893, 2), (42896, 42898, 2), (42902, 42922, 2),
   (42923, 42926, 1), (42928, 42932, 1), (42934, 42948, 2), (42949, 42951, 1),
   (42953, 42955, 2), (42956, 42972, 2), (42997, 42997, 1), (65313, 65338, 1),
   (66560, 66599, 1), (66736, 66771, 1), (66928, 66938, 1), (66940, 66954, 1),
   (66956, 66962, 1), (66964, 66965, 1), (68736, 68786, 1), (68944, 68965, 1),
   (71840, 71871, 1), (93760, 93791, 1), (93856, 93880, 1), (119808, 119833, 1),
   (119860, 119885, 1), (119912, 119937, 1), (119964, 119966, 2), (119967, 119967, 1),
   (119970, 119970, 1), (119973, 119974, 1), (119977, 119980, 1), (119982, 119989, 1),
   (120016, 120041, 1), (120068, 120069, 1), (120071, 120074, 1), (120077, 120084, 1),
   (120086, 120092, 1), (120120, 120121, 1), (120123, 120126, 1), (120128, 120132, 1),
   (120134, 120134, 1), (120138, 120144, 1), (120172, 120197, 1), (120224, 120249, 1),
   (120276, 120301, 1), (120328, 120353, 1), (120380, 120405, 1), (120432, 120457, 1),
   (120488, 120512, 1), (120546, 120570, 1), (120604, 120628, 1), (120662, 120686, 1),
   (120720, 120744, 1), (120778, 120778, 1), (125184, 125217, 1), (127280, 127305, 1),
   (127312, 127337, 1), (127344, 127369, 1)]

/-- The spans of title-case letters. -/
def titlecaseSpans : List (Nat × Nat × Nat) :=
  [(453, 453, 1), (456, 456, 1), (459, 459, 1), (498, 498, 1), (8072, 8079, 1), (8088, 8095, 1),
   (8104, 8111, 1), (8124, 8124, 1), (8140, 8140, 1), (8188, 8188, 1)]

end GraphClient.Property
