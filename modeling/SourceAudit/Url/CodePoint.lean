import SourceAudit.Text.Ranges

namespace SourceAudit.Url.Idna

/-- Code points that no domain name may hold, with those that stand for a text with a space. -/
def disallowedRanges : List (Nat × Nat) :=
  Text.intervals 0x80
    [0, 33, 7, 1, 6, 1, 4, 1, 3, 1, 543, 6, 154, 3, 5, 6, 5, 1, 1, 1, 20, 1, 397, 1, 38, 1, 51, 2,
     3, 1, 56, 7, 27, 4, 6, 17, 22, 1, 192, 1, 48, 2, 59, 2, 101, 14, 59, 2, 49, 2, 15, 1, 28, 2, 1,
     1, 11, 5, 32, 7, 75, 1, 161, 1, 8, 2, 2, 2, 22, 1, 7, 1, 1, 3, 4, 2, 9, 2, 2, 2, 4, 8, 1, 4, 2,
     1, 5, 2, 25, 2, 3, 1, 6, 4, 2, 2, 22, 1, 7, 1, 2, 1, 2, 1, 2, 2, 1, 1, 5, 4, 2, 2, 3, 3, 1, 7,
     4, 1, 1, 7, 17, 10, 3, 1, 9, 1, 3, 1, 22, 1, 7, 1, 2, 1, 5, 2, 10, 1, 3, 1, 3, 2, 1, 15, 4, 2,
     12, 7, 7, 1, 3, 1, 8, 2, 2, 2, 22, 1, 7, 1, 2, 1, 5, 2, 9, 2, 2, 2, 3, 7, 3, 4, 2, 1, 5, 2, 18,
     10, 2, 1, 6, 3, 3, 1, 4, 3, 2, 1, 1, 1, 2, 3, 2, 3, 3, 3, 12, 4, 5, 3, 3, 1, 4, 2, 1, 6, 1, 14,
     21, 5, 13, 1, 3, 1, 23, 1, 16, 2, 9, 1, 3, 1, 4, 7, 2, 1, 3, 1, 2, 2, 4, 2, 10, 7, 22, 1, 3, 1,
     23, 1, 10, 1, 5, 2, 9, 1, 3, 1, 4, 7, 2, 5, 3, 1, 4, 2, 10, 1, 3, 12, 13, 1, 3, 1, 51, 1, 3, 1,
     6, 4, 16, 2, 26, 1, 3, 1, 18, 3, 24, 1, 9, 1, 1, 2, 7, 3, 1, 4, 6, 1, 1, 1, 8, 6, 10, 2, 3, 12,
     58, 4, 29, 37, 2, 1, 1, 1, 5, 1, 24, 1, 1, 1, 23, 2, 5, 1, 1, 1, 7, 1, 10, 2, 4, 32, 72, 1, 36,
     4, 39, 1, 36, 1, 15, 1, 13, 37, 198, 1, 1, 5, 1, 2, 377, 1, 4, 2, 7, 1, 1, 1, 4, 2, 41, 1, 4, 2,
     33, 1, 4, 2, 7, 1, 1, 1, 4, 2, 15, 1, 57, 1, 4, 2, 67, 2, 32, 3, 26, 6, 86, 2, 6, 2, 640, 1, 28,
     3, 89, 7, 22, 9, 24, 9, 20, 12, 13, 1, 3, 1, 2, 12, 94, 2, 10, 6, 10, 6, 26, 6, 89, 7, 43, 5,
     70, 10, 31, 1, 12, 4, 12, 4, 1, 3, 42, 2, 5, 11, 44, 4, 26, 6, 11, 3, 62, 2, 65, 1, 29, 2, 11,
     6, 10, 6, 14, 2, 47, 1, 12, 20, 77, 1, 166, 8, 60, 3, 15, 3, 62, 5, 43, 2, 11, 8, 43, 5, 534, 2,
     6, 2, 38, 2, 6, 2, 8, 1, 1, 1, 1, 1, 1, 1, 31, 2, 53, 1, 7, 1, 1, 3, 3, 1, 7, 3, 4, 2, 6, 4, 13,
     2, 1, 2, 3, 1, 7, 14, 3, 2, 7, 1, 12, 3, 1, 8, 14, 1, 32, 1, 5, 5, 8, 2, 27, 1, 52, 12, 33, 15,
     140, 4, 666, 22, 11, 21, 40, 20, 1752, 2, 382, 5, 45, 1, 1, 5, 1, 2, 56, 7, 2, 14, 24, 9, 7, 1,
     7, 1, 7, 1, 7, 1, 7, 1, 7, 1, 7, 1, 7, 1, 126, 34, 26, 1, 89, 12, 214, 43, 63, 1, 86, 2, 2, 2,
     99, 5, 43, 1, 94, 1, 86, 10, 47, 1, 418, 1, 4, 1, 16, 1, 28852, 3, 55, 9, 348, 20, 184, 8, 221,
     20, 60, 3, 10, 6, 56, 8, 70, 8, 12, 6, 116, 11, 30, 3, 78, 1, 11, 4, 33, 1, 55, 9, 14, 2, 10, 2,
     103, 24, 28, 10, 6, 2, 6, 2, 6, 9, 7, 1, 7, 1, 60, 4, 126, 2, 10, 6, 11172, 12, 23, 4, 49, 8452,
     366, 2, 106, 38, 7, 12, 5, 5, 26, 1, 5, 1, 1, 1, 2, 1, 2, 1, 280, 6, 364, 32, 10, 2, 22, 1, 6,
     7, 16, 1, 24, 4, 5, 2, 19, 1, 4, 5, 1, 1, 1, 3, 1, 1, 1, 1, 1, 1, 1, 1, 126, 2, 1, 1, 190, 3, 6,
     2, 6, 2, 6, 2, 3, 3, 3, 1, 3, 1, 7, 17, 12, 1, 26, 1, 19, 1, 2, 1, 15, 2, 14, 34, 123, 5, 3, 4,
     45, 3, 88, 1, 13, 3, 1, 47, 46, 130, 29, 3, 49, 15, 28, 4, 36, 9, 30, 5, 43, 5, 30, 1, 37, 4,
     14, 42, 158, 2, 10, 6, 36, 4, 36, 4, 40, 8, 52, 11, 12, 1, 15, 1, 7, 1, 2, 1, 11, 1, 15, 1, 7,
     1, 2, 3, 52, 12, 311, 9, 22, 10, 8, 24, 6, 1, 42, 1, 10, 68, 6, 2, 1, 1, 44, 1, 2, 3, 1, 2, 23,
     1, 72, 8, 9, 48, 19, 1, 2, 5, 33, 3, 27, 5, 27, 38, 56, 4, 20, 2, 50, 1, 2, 5, 8, 1, 3, 1, 29,
     2, 3, 4, 10, 7, 9, 7, 64, 32, 39, 4, 12, 9, 54, 3, 29, 2, 27, 5, 26, 7, 4, 12, 7, 80, 73, 55,
     51, 13, 51, 7, 46, 8, 10, 6, 38, 3, 29, 8, 2, 208, 31, 1, 42, 1, 3, 2, 2, 16, 6, 8, 9, 33, 46,
     8, 42, 22, 26, 38, 28, 20, 23, 9, 78, 4, 36, 9, 62, 1, 5, 13, 25, 7, 10, 6, 53, 1, 18, 8, 39, 9,
     96, 1, 20, 11, 18, 1, 47, 62, 7, 1, 1, 1, 4, 1, 15, 1, 11, 6, 59, 5, 10, 6, 4, 1, 8, 2, 2, 2,
     22, 1, 7, 1, 2, 1, 5, 1, 10, 2, 2, 2, 3, 2, 1, 6, 1, 5, 7, 2, 7, 3, 5, 11, 10, 1, 1, 2, 1, 1,
     38, 1, 10, 1, 1, 2, 1, 1, 4, 1, 10, 1, 2, 8, 2, 29, 92, 1, 5, 30, 72, 8, 10, 166, 54, 2, 38, 34,
     69, 11, 10, 6, 13, 19, 58, 6, 10, 6, 20, 28, 27, 2, 15, 4, 23, 185, 60, 100, 83, 12, 8, 2, 1, 2,
     8, 1, 2, 1, 30, 1, 2, 2, 12, 9, 10, 70, 8, 2, 46, 2, 11, 27, 72, 8, 83, 13, 73, 7, 10, 86, 8,
     88, 34, 14, 10, 6, 9, 1, 45, 1, 14, 10, 29, 3, 32, 2, 22, 1, 14, 73, 7, 1, 2, 1, 44, 3, 1, 1, 2,
     1, 9, 8, 10, 6, 6, 1, 2, 1, 37, 1, 2, 1, 6, 7, 10, 6, 44, 4, 10, 246, 25, 7, 17, 1, 41, 3, 29,
     85, 1, 15, 50, 13, 923, 102, 111, 1, 5, 11, 196, 2636, 99, 13, 1072, 16, 22, 10, 3995, 5, 583,
     6841, 58, 1734, 569, 7, 31, 1, 10, 4, 81, 1, 10, 6, 30, 2, 6, 10, 70, 10, 10, 1, 7, 1, 21, 5,
     19, 432, 58, 198, 91, 5, 25, 2, 25, 44, 75, 4, 57, 7, 17, 64, 5, 11, 7, 9, 7382, 41, 32, 97,
     115, 8701, 4, 1, 7, 1, 2, 1, 291, 15, 1, 29, 3, 2, 1, 14, 4, 8, 396, 2308, 107, 5, 13, 3, 9, 7,
     10, 2, 8, 3932, 253, 3, 436, 6, 23, 15, 17, 15, 46, 2, 23, 9, 116, 60, 246, 10, 39, 2, 194, 21,
     70, 122, 20, 12, 20, 12, 87, 9, 25, 135, 85, 1, 71, 1, 2, 2, 1, 2, 2, 2, 4, 1, 12, 1, 1, 1, 7,
     1, 65, 1, 4, 2, 8, 1, 7, 1, 28, 1, 4, 1, 5, 1, 1, 3, 7, 1, 340, 2, 292, 2, 702, 15, 5, 1, 15,
     1104, 31, 6, 6, 213, 7, 1, 17, 2, 7, 1, 2, 1, 5, 5, 62, 33, 1, 112, 45, 3, 14, 2, 10, 4, 2, 320,
     31, 17, 58, 5, 1, 464, 42, 214, 43, 4, 1, 192, 31, 1, 22, 8, 2, 224, 7, 1, 4, 1, 2, 1, 15, 1,
     197, 2, 16, 41, 76, 4, 10, 4, 2, 785, 68, 76, 61, 194, 4, 1, 27, 1, 2, 1, 1, 2, 1, 1, 10, 1, 4,
     1, 1, 1, 1, 6, 1, 4, 1, 1, 1, 1, 1, 1, 3, 1, 2, 1, 1, 2, 1, 1, 1, 1, 1, 1, 1, 1, 1, 1, 2, 1, 1,
     2, 4, 1, 7, 1, 4, 1, 4, 1, 1, 1, 10, 1, 17, 5, 3, 1, 5, 1, 17, 52, 2, 270, 44, 4, 100, 12, 15,
     2, 15, 1, 15, 1, 37, 11, 173, 56, 29, 13, 44, 4, 9, 7, 2, 14, 6, 154, 986, 2, 17, 3, 13, 3, 218,
     6, 12, 4, 1, 15, 12, 4, 56, 8, 10, 6, 40, 8, 30, 2, 12, 4, 2, 14, 9, 39, 344, 8, 14, 2, 13, 3,
     71, 1, 1, 3, 18, 1, 13, 3, 12, 5, 147, 1, 103, 1029, 42720, 32, 4382, 2, 5774, 2, 7473, 15, 622,
     2466, 542, 1506, 4939, 5, 8490, 39814, 11328, 656576, 240, 196112]

def ignoredRanges : List (Nat × Nat) :=
  Text.intervals 0x80
    [45, 1, 673, 1, 3599, 2, 1619, 2, 85, 5, 2043, 1, 84, 5, 5, 6, 4340, 1, 52379, 16, 239, 1, 160,
     1, 48383, 4, 5327, 8, 798597, 240]

def nonspacingRanges : List (Nat × Nat) :=
  Text.intervals 0x80
    [640, 112, 275, 7, 263, 45, 1, 1, 1, 2, 1, 2, 1, 2, 71, 11, 48, 21, 16, 1, 101, 7, 2, 6, 2, 2,
     1, 4, 35, 1, 30, 27, 91, 11, 58, 9, 9, 1, 24, 4, 1, 9, 1, 3, 1, 5, 43, 3, 59, 9, 42, 57, 55, 1,
     1, 1, 4, 8, 4, 1, 3, 7, 10, 2, 29, 1, 58, 1, 4, 4, 8, 1, 20, 2, 26, 5, 57, 1, 4, 17, 30, 2, 3,
     1, 11, 2, 57, 1, 4, 8, 4, 1, 20, 2, 22, 8, 58, 1, 2, 1, 1, 4, 8, 10, 11, 2, 30, 1, 61, 1, 12, 1,
     50, 1, 3, 1, 55, 1, 1, 3, 5, 17, 11, 2, 29, 1, 58, 1, 15, 2, 20, 2, 28, 2, 57, 2, 4, 4, 8, 1,
     20, 2, 29, 1, 72, 1, 7, 5, 90, 1, 2, 7, 12, 8, 98, 1, 2, 9, 11, 7, 73, 2, 27, 1, 1, 1, 1, 1, 55,
     14, 1, 5, 1, 2, 5, 48, 9, 1, 102, 4, 1, 6, 1, 2, 2, 2, 25, 2, 4, 3, 16, 4, 13, 1, 2, 2, 6, 1,
     15, 1, 703, 3, 946, 3, 29, 2, 30, 2, 30, 2, 67, 7, 8, 1, 2, 11, 9, 1, 167, 2, 34, 1, 118, 3, 4,
     2, 9, 1, 6, 3, 219, 2, 2, 1, 58, 1, 1, 9, 1, 1, 2, 8, 6, 13, 48, 84, 48, 1, 1, 4, 2, 1, 5, 1,
     40, 9, 12, 2, 32, 4, 2, 2, 1, 3, 56, 1, 1, 2, 3, 1, 1, 3, 58, 8, 2, 2, 152, 3, 1, 13, 1, 7, 4,
     1, 6, 1, 3, 2, 198, 64, 720, 33, 3070, 3, 141, 1, 96, 32, 554, 4, 107, 2, 30164, 4, 1, 10, 32,
     2, 80, 2, 272, 1, 3, 1, 4, 1, 25, 2, 5, 1, 151, 2, 26, 18, 13, 1, 38, 8, 25, 11, 46, 3, 48, 1,
     2, 4, 2, 2, 39, 1, 67, 6, 2, 2, 2, 2, 12, 1, 8, 1, 47, 1, 51, 1, 1, 3, 2, 2, 5, 2, 1, 1, 42, 2,
     8, 1, 238, 1, 2, 1, 4, 1, 20272, 1, 769, 16, 973, 1, 226, 1, 149, 5, 1670, 15, 40, 8, 165, 2,
     573, 4, 65, 5, 317, 2, 77, 6, 70, 11, 49, 4, 123, 1, 54, 15, 41, 1, 2, 2, 10, 3, 49, 4, 2, 2, 7,
     1, 61, 3, 36, 5, 1, 8, 62, 1, 12, 2, 52, 9, 10, 4, 2, 1, 95, 3, 2, 1, 1, 2, 6, 1, 2, 1, 157, 1,
     3, 8, 21, 2, 57, 2, 3, 1, 37, 15, 70, 6, 13, 1, 1, 1, 1, 1, 14, 2, 85, 8, 2, 3, 1, 1, 23, 1, 84,
     6, 1, 1, 4, 2, 1, 2, 238, 4, 6, 2, 1, 2, 27, 2, 85, 8, 2, 1, 1, 2, 106, 1, 1, 1, 2, 6, 1, 1,
     101, 1, 1, 1, 2, 4, 1, 5, 259, 9, 1, 2, 256, 2, 1, 1, 4, 1, 144, 8, 4, 1, 32, 6, 2, 2, 40, 6, 2,
     4, 8, 1, 9, 6, 2, 3, 46, 13, 1, 2, 198, 1, 1, 3, 1, 1, 201, 14, 84, 22, 2, 7, 1, 2, 1, 2, 122,
     21, 1, 1, 72, 2, 3, 1, 1, 1, 347, 2, 11, 2, 52, 5, 5, 1, 1, 1, 23, 1, 5349, 1, 6, 15, 11464, 12,
     3, 3, 2496, 5, 59, 7, 1048, 1, 63, 4, 81, 1, 19640, 2, 4705, 71, 544, 3, 17, 8, 2, 7, 30, 4,
     148, 3, 1979, 55, 4, 50, 8, 1, 14, 1, 22, 21, 1360, 144, 160, 7, 375, 1, 61, 4, 508, 4, 254, 2,
     243, 1, 2, 1, 7, 2, 5, 1, 474, 7, 109, 7]

def spacingMarkRanges : List (Nat × Nat) :=
  Text.intervals 0x80
    [2179, 1, 55, 1, 2, 3, 8, 4, 1, 2, 50, 2, 58, 3, 6, 6, 10, 1, 43, 1, 58, 3, 66, 1, 58, 3, 8, 4,
     53, 2, 58, 1, 1, 1, 6, 6, 10, 1, 102, 2, 1, 12, 10, 1, 41, 3, 61, 4, 61, 2, 58, 14, 9, 2, 28, 1,
     14, 2, 58, 3, 5, 7, 10, 1, 42, 2, 75, 3, 6, 8, 18, 2, 330, 2, 63, 1, 171, 2, 4, 1, 6, 1, 2, 2,
     25, 2, 10, 3, 2, 7, 21, 2, 2, 6, 2, 1, 10, 3, 1656, 1, 30, 1, 129, 1, 7, 8, 1, 2, 346, 4, 2, 9,
     1, 6, 224, 2, 58, 1, 1, 1, 9, 1, 1, 2, 8, 6, 145, 1, 48, 1, 4, 2, 1, 5, 1, 2, 61, 1, 30, 1, 4,
     2, 2, 1, 60, 1, 2, 3, 1, 1, 3, 2, 48, 8, 8, 2, 171, 1, 21, 1, 4918, 2, 30707, 2, 2, 1, 88, 2,
     50, 16, 142, 2, 47, 1, 48, 2, 4, 2, 2, 3, 110, 2, 2, 2, 24, 1, 45, 1, 1, 1, 109, 1, 2, 2, 5, 1,
     237, 2, 1, 2, 1, 2, 1, 1, 25619, 1, 1, 1, 127, 1, 45, 3, 4, 2, 115, 1, 24, 2, 59, 1, 48, 3, 9,
     2, 13, 1, 93, 3, 3, 2, 1, 1, 170, 3, 31, 2, 58, 2, 1, 13, 9, 1, 10, 2, 84, 3, 7, 12, 1, 1, 101,
     3, 8, 2, 3, 1, 106, 3, 6, 1, 1, 4, 2, 1, 237, 3, 6, 4, 2, 1, 113, 3, 8, 2, 1, 1, 109, 1, 1, 2,
     6, 1, 103, 1, 1, 2, 4, 1, 261, 3, 9, 1, 247, 9, 4, 1, 2, 1, 1, 1, 142, 3, 8, 4, 4, 1, 34, 2, 48,
     1, 29, 2, 62, 1, 201, 1, 3, 1, 1, 1, 199, 1, 14, 2, 105, 1, 7, 1, 2, 1, 213, 5, 4, 2, 1, 1, 350,
     2, 12, 1, 48, 2, 8, 2, 1, 1, 16872, 3, 3620, 55, 104, 2, 24947, 2, 6, 6]

/-- Marks and signs that let the letters around them join although they take room. -/
def transparentRanges : List (Nat × Nat) :=
  Text.intervals 0x80 [3135, 1, 6, 1, 68928, 2, 566, 1, 52491, 1]

def joinsNextRanges : List (Nat × Nat) :=
  Text.intervals 0x80
    [1440, 1, 5, 1, 1, 1, 1, 5, 4, 13, 1, 7, 1, 2, 35, 2, 9, 15, 18, 38, 1, 2, 9, 1, 1, 1, 1, 2, 40,
     3, 2, 1, 18, 3, 5, 4, 1, 9, 1, 1, 1, 1, 1, 2, 31, 11, 3, 15, 2, 4, 1, 1, 2, 3, 2, 6, 74, 33, 86,
     5, 2, 1, 1, 10, 1, 1, 10, 1, 1, 4, 2, 1, 29, 1, 2, 5, 1, 1, 16, 10, 5, 2, 2, 6, 1, 15, 3902, 1,
     24, 89, 14, 34, 1, 1, 36757, 51, 25165, 5, 8, 1, 5, 10, 1, 3, 10, 4, 145, 1, 1, 1, 3, 3, 1, 2,
     1, 1, 2, 1, 28, 2, 337, 34, 1, 1, 415, 2, 1, 2, 104, 3, 1, 17, 12, 3, 28, 4, 2, 12, 46, 1, 1, 2,
     4, 1, 2, 2, 1, 2, 1, 1, 2, 1, 5, 2, 55638, 34]

def joinsPreviousRanges : List (Nat × Nat) :=
  Text.intervals 0x80
    [1440, 1, 1, 30, 1, 10, 35, 2, 1, 3, 5, 91, 1, 1, 24, 2, 10, 3, 2, 1, 16, 1, 1, 30, 29, 51, 74,
     33, 85, 25, 7, 1, 1, 4, 1, 28, 3, 1, 2, 7, 16, 13, 1, 27, 3902, 1, 24, 89, 14, 34, 1, 1, 36757,
     50, 25166, 6, 1, 1, 1, 2, 3, 9, 1, 10, 2, 1, 6, 5, 144, 18, 23, 6, 338, 35, 414, 3, 1, 2, 104,
     21, 12, 4, 27, 18, 46, 1, 1, 5, 1, 8, 1, 4, 4, 2, 55639, 34]

def rightToLeftRanges : List (Nat × Nat) :=
  Text.intervals 0x80
    [1342, 1, 1, 1, 2, 1, 2, 1, 9, 37, 19, 1, 2, 1, 1, 1, 13, 48, 34, 3, 1, 101, 15, 2, 7, 2, 10,
     23, 1, 30, 29, 89, 11, 58, 9, 2, 4, 1, 3, 24, 4, 1, 9, 1, 3, 1, 7, 41, 5, 50, 16, 42, 62184, 17,
     688, 1, 2444, 284, 4, 225, 15, 38, 10, 165, 6, 75, 10, 484, 38, 6, 31, 33, 240, 42, 3, 27, 56,
     70, 11, 49, 4, 113, 55305, 208, 82, 34, 7, 1011]

def arabicNumberRanges : List (Nat × Nat) :=
  Text.intervals 0x80 [1504, 10, 1, 2, 67267, 26, 278, 31]

def europeanNumberRanges : List (Nat × Nat) :=
  Text.intervals 0x80 [1648, 10, 64487, 27]

def neutralRanges : List (Nat × Nat) :=
  Text.intervals 0x80
    [33, 55, 31, 1, 449, 2, 7, 14, 2, 28, 1, 17, 117, 1, 128, 1, 403, 6, 118, 2, 1, 2, 1, 1, 1, 2,
     90, 1, 115, 1, 10, 1, 268, 4, 504, 2, 7, 1, 245, 1, 257, 8, 125, 7, 448, 1, 250, 4, 1106, 10,
     102, 1, 666, 2, 318, 1, 20, 27, 309, 6, 152, 34, 1548, 184, 64, 74, 60, 428, 69, 26, 1, 790, 1,
     339, 256, 768, 229, 6, 14, 7, 256, 517, 3, 25, 15, 1, 6, 1, 5, 3, 96, 1, 90, 1, 196, 38, 7130,
     64, 22160, 55, 326, 3, 99, 1, 10, 2, 128, 34, 102, 1, 159, 4, 12, 2, 58, 4, 754, 2, 20567, 573,
     69, 2, 698, 1, 62, 77, 3, 17, 1918, 1, 537, 7, 558, 1, 353, 9, 377, 20, 1530, 13, 2408, 29,
     20464, 1, 23581, 753, 760, 89, 3, 1, 186, 87, 4008, 1, 3056, 576, 61, 3, 61, 1, 178, 2459]

end SourceAudit.Url.Idna
