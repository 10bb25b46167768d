/-!
# The numbers of the parser's states
-/

namespace PerlJava.Perl

/-- The numbers by which traces know the states of the parser, in the order in which the states are
found. -/
def stateNumbers : Array Nat := #[
  0, 1, 3, 2, 10, 22, 25, 32, 4, 7, 21, 5, 28, 30, 16, 13, 6, 26, 15, 23, 12, 14, 27, 8, 17, 18,
  19, 9, 24, 33, 20, 11, 31, 29, 132, 142, 34, 46, 51, 48, 38, 49, 50, 43, 40, 47, 41, 45, 39, 44,
  42, 52, 131, 130, 114, 129, 127, 78, 97, 121, 119, 72, 64, 69, 111, 94, 99, 79, 117, 98, 84, 126,
  91, 110, 62, 115, 103, 125, 89, 74, 70, 93, 104, 124, 87, 75, 82, 100, 66, 95, 85, 63, 68, 109,
  122, 76, 90, 77, 67, 65, 107, 101, 105, 96, 86, 88, 123, 73, 71, 112, 106, 116, 108, 118, 83, 80,
  102, 113, 92, 35, 36, 134, 140, 137, 138, 136, 139, 59, 56, 58, 57, 37, 61, 60, 133, 53, 81, 120,
  144, 143, 128, 54, 55, 141, 135, 325, 145, 161, 157, 147, 158, 160, 159, 153, 149, 156, 151, 150,
  155, 148, 154, 152, 162, 319, 315, 317, 314, 313, 318, 316, 266, 276, 284, 294, 290, 272, 297,
  274, 299, 281, 286, 291, 273, 293, 292, 296, 295, 275, 270, 280, 268, 298, 265, 279, 283, 271,
  269, 267, 287, 300, 289, 285, 277, 264, 288, 282, 278, 168, 312, 195, 243, 244, 238, 252, 249,
  256, 240, 251, 248, 254, 247, 257, 239, 253, 255, 246, 242, 250, 241, 245, 237, 218, 223, 189,
  192, 193, 190, 191, 301, 222, 203, 311, 213, 209, 210, 181, 182, 176, 217, 228, 309, 310, 206,
  207, 183, 184, 197, 198, 224, 225, 172, 219, 220, 204, 169, 175, 235, 236, 306, 307, 185, 186,
  211, 212, 187, 188, 173, 174, 170, 171, 232, 233, 226, 227, 229, 230, 221, 205, 208, 308, 179,
  180, 177, 178, 258, 260, 259, 231, 234, 302, 304, 305, 303, 199, 201, 202, 200, 194, 263, 262,
  261, 216, 214, 215, 323, 324, 164, 166, 165, 146, 167, 320, 163, 196, 327, 326, 321, 322, 485,
  328, 350, 345, 329, 346, 349, 347, 348, 341, 331, 344, 337, 338, 339, 334, 335, 332, 333, 336,
  343, 330, 342, 340, 351, 481, 477, 479, 476, 475, 480, 478, 432, 444, 452, 462, 458, 440, 465,
  442, 467, 449, 454, 459, 441, 461, 460, 464, 463, 443, 436, 448, 434, 466, 431, 447, 451, 439,
  437, 438, 435, 433, 455, 468, 457, 453, 445, 430, 456, 450, 446, 353, 474, 372, 373, 411, 408,
  407, 409, 410, 412, 403, 419, 417, 423, 405, 418, 416, 421, 415, 424, 404, 420, 422, 414, 406,
  413, 402, 401, 369, 368, 370, 371, 383, 382, 384, 363, 362, 364, 359, 389, 394, 473, 380, 365,
  375, 392, 356, 390, 378, 354, 358, 400, 471, 366, 385, 367, 357, 355, 398, 393, 395, 391, 379,
  381, 472, 361, 360, 425, 426, 396, 397, 399, 469, 470, 376, 377, 429, 428, 427, 388, 386, 387,
  484, 482, 352, 374, 486, 483, 562, 503, 498, 487, 499, 502, 500, 501, 494, 489, 497, 491, 492,
  490, 496, 488, 495, 493, 504, 559, 560, 558, 557, 551, 505, 556, 521, 547, 548, 546, 549, 545,
  544, 520, 519, 530, 529, 531, 514, 513, 515, 510, 533, 538, 555, 527, 516, 523, 536, 507, 534,
  525, 509, 543, 553, 517, 532, 518, 508, 506, 542, 537, 539, 535, 526, 528, 554, 512, 511, 550,
  540, 541, 552, 524, 522, 561, 573, 563, 574, 575, 576, 569, 565, 571, 572, 567, 566, 564, 570,
  568, 577, 595, 594, 591, 592, 593, 582, 581, 590, 589, 588, 585, 586, 579, 580, 578, 584, 583,
  587, 604, 605, 606, 601, 597, 602, 603, 599, 598, 596, 600, 607, 612, 609, 611, 608, 610, 620,
  621, 617, 614, 618, 619, 615, 613, 616, 622, 626, 625, 623, 624, 632, 633, 629, 627, 630, 631,
  628, 639, 636, 634, 637, 638, 635, 643, 641, 642, 640, 647, 645, 646, 644, 648, 649]

end PerlJava.Perl
