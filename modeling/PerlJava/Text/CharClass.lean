/-!
# Classes of characters

Which characters are letters, decimal digits, word characters, blanks or printable, over the whole
of Unicode 14. Below code point 128 each class is written out; above, it is read from a table of
the points at which membership changes.
-/

namespace PerlJava.Text

/-- A set of code points, given by the increasing points at which membership changes. -/
structure CodeSet where
  changes : Array Nat

variable (c : Char)

namespace CodeSet

def countUpTo (points : Array Nat) (n lo hi : Nat) : Nat :=
  if lo < hi then
    let mid := (lo + hi) / 2
    if points.getD mid 0 ≤ n then countUpTo points n (mid + 1) hi else countUpTo points n lo mid
  else lo
termination_by hi - lo

def contains (s : CodeSet) (n : Nat) : Bool :=
  countUpTo s.changes n 0 s.changes.size % 2 == 1

def digitValue : Nat :=
  if '0' ≤ c ∧ c ≤ '9' then c.toNat - '0'.toNat else c.toNat - 'a'.toNat + 10

/-- Reads the gaps between successive changes, in base 36 and separated by blanks, starting from
code point 128. -/
def ofGaps (rows : List String) : CodeSet :=
  let step := fun (state : Array Nat × Nat × Nat) (c : Char) =>
    let (points, last, gap) := state
    if c = ' ' then (points.push (last + gap), last + gap, 0)
    else (points, last, gap * 36 + digitValue c)
  let (points, last, gap) := (" ".intercalate rows).toList.foldl step (#[], 128, 0)
  ⟨points.push (last + gap)⟩

end CodeSet

/-- Letters above code point 127. -/
def letters : CodeSet := .ofGaps [
  "16 1 a 1 4 1 5 n 1 v 1 cq 4 c e 5 7 1 1 1 3l 5 1 2 2 4 1 1 6 1 1 3 1 1 1 k 1 2b 1 3v 8 4m 1",
  "12 2 1 6 15 1z r 4 4 19 17 z 2 1 2r 1 1 f 2 7 2 a 3 2 1 g 1 1 u t 2h b 1 o x 9 2 4 1 5 m 4 1",
  "9 1 3 1 n p 7 b 5 o 1 6 h 16 1m 1i 3 1 i 1 7 a f g 4 8 2 2 2 m 1 7 1 1 3 4 3 1 g 1 d 2 1 3 e",
  "2 a 1 8 6 4 2 2 m 1 7 1 2 1 2 1 2 v 4 1 1 j 3 g 9 1 3 1 m 1 7 1 2 1 5 3 1 i 1 f 2 n 1 b 8 2",
  "2 2 m 1 7 1 2 1 5 3 1 u 2 1 3 f 1 h 1 1 6 3 3 1 4 3 2 1 1 1 2 3 2 3 3 3 c m 1 1g 8 1 3 1 n 1",
  "g 3 1 q 3 2 1 2 2 u 1 4 8 1 3 1 n 1 a 1 5 3 1 v 2 1 2 f 2 h 9 1 3 1 15 2 1 g 1 5 3 8 3 o 6 5",
  "i 3 o 1 9 1 1 2 7 1m 1c 1 2 c 7 1m 2 1 1 1 5 1 o 1 1 1 a 1 2 9 1 2 5 1 1 l 4 w 1 1r 8 1 10 r",
  "5 37 17 k 1 g 6 4 4 3 1 3 2 7 3 4 d c 1 h 12 1 1 5 1 2 17 1 99 1 4 2 7 1 1 1 4 2 15 1 4 2 x",
  "1 4 2 7 1 1 1 4 2 f 1 1l 1 4 2 1v 11 g g 2e 2 6 3 h8 2 h 1 q 5 23 6 8 7 i d j e i e d 1 3 f",
  "1g z 1 4 1 1v 2h 7 5 2 y 1 1 5 1y a v 1d u 2 5 b 18 4 q 1i n 9 1h 2a 1 2l 1b h 8 1i u d 2 a",
  "18 q 10 15 3 a 10 2 9 7 17 2 3 15 4 1 6 1 2 3 1 5 5c 1s 7q 2 6 2 12 2 6 2 8 1 1 1 1 1 1 1 v",
  "2 1h 1 7 1 1 3 3 1 7 3 4 2 6 4 d 5 3 1 7 38 1 d 1 g d 2t 1 4 1 2 a 1 1 3 5 6 1 1 1 1 1 1 4 1",
  "b 2 4 5 5 4 1 1g 2 22j 6d 6 4 3 2 c 12 1 1 5 1 2 1k 7 1 g n 9 7 1 7 1 7 1 7 1 7 1 7 1 7 1 7",
  "28 1 d1 2 16 5 5 2 4 2e 6 3 1 2i 1 4 5 17 1 2m h w 1c g e8 534 1s h3h 1v 1a 2 7h 3 g a 2 k",
  "1b g v 2 1y 1d 9 2 2v 2 1s 5 2 1 1 1 5 o g 1 3 1 4 1 n t 1g e 1e 1q 6 3 1 1 2 b s a n p t 7",
  "1b s 1 g 5 1 a a 5 1 15 n 3 1 8 k n 3 1 3 1e 1 1 3 2 2 5 2 1 1 1 o 3 2 b 7 3 c 6 2 6 2 6 9 7",
  "1 7 1 17 1 e 6 37 t 8mc c n 4 1d 6is a6 2 2y 12 7 c 5 5 1 1 a 1 d 1 5 1 1 1 2 1 2 1 30 x a3",
  "i 1s 2 1i 14 c 38 5 1 3r 10 q 6 q b 2h 3 6 2 6 2 6 2 3 z c 1 q 1 j 1 2 1 f 2 e y 3f at t 3",
  "1d 1b w d k 1 8 6 12 a u 2 10 4 8 1c 4e i 10 4 10 4 14 8 1g c b 1 f 1 7 1 2 1 b 1 f 1 7 1 2",
  "1v 8n 9 m a 8 o 6 1 16 1 9 1x 6 2 1 1 18 1 2 3 1 2 n a n 9 v 1t j 1 2 a m a q 1y 1k 6 2 1s 1",
  "f 4 1 3 1 t 16 t 3 t z 8 1 s r 1i a m a j d i 32 21 1j 1f d 1f d 10 9o 16 6 2 26 t a 1 8 m",
  "16 i 1a l r n c 1h 1l 2 2 1 d 19 w p q 10 t 1 2 1 8 z 3 1 c 1c e 4 l 1 1 1 z i 1 p 2c 7 1 1",
  "1 4 1 f 1 a 7 1b 12 8 2 2 2 m 1 7 1 2 1 5 3 1 i 1 c 5 4e 1h i 4 k 3 u 1c k 2 1 1 54 1b 15 4",
  "10 1c k 1 1n 17 d 1 1z r 11 7 55 18 38 1s v 8 2 1 2 8 1 2 1 o f 1 1 1 2m 8 2 13 g 1 1 1 s 1",
  "a 14 7 1 l 1 b 1a j 1 i 21 7b 9 1 11 h 1 1d u 34 7 1 2 1 12 l 1 p 6 1 2 1 w e 1 93 j 59 1 27",
  "pm 6e 5g 218 2p f tr 34h g7 6nt ft 7 v h 27 h u i 1c g 4 v l 5 j j4 1s 3k 23 5 1 1u d 1s 2 1",
  "1 s 4qg 8 ye 16 9 6w7 4 1 7 1 2 1 83 19 3 h 4 8 b0 1s4 2z 5 d 3 9 7 a 4me 2d 1 1z 1 2 2 1 2",
  "2 2 4 1 c 1 1 1 7 1 1t 1 4 2 8 1 7 1 s 1 4 1 5 1 1 3 7 1 9g 2 p 1 p 1 v 1 p 1 v 1 p 1 v 1 p",
  "1 v 1 p 1 8 1f8 v dd 19 a 7 g 1 8x u i 18 z8 7 1 4 1 2 1 f 1 5h 1n 1w 7 1 xg 4 1 r 1 2 1 1 2",
  "1 1 a 1 4 1 1 1 1 6 1 4 1 1 1 1 1 1 3 1 2 1 1 2 1 1 1 1 1 1 1 1 1 1 2 1 1 2 4 1 7 1 4 1 4 1",
  "1 1 a 1 h 5 3 1 5 1 h 3es wyo w 37d 7 66 2 4g2 e 5rl 2e7 f2 15u 3t7"]

def decimals : CodeSet := .ofGaps [
  "15s a 3q a 5i a bg a 3a a 3a a 3a a 3a a 3a a 3a a 3a a 3a a 3a a 2o a 3a a 1y a 7q a 1y a",
  "1fq a 12 a 8c a 3k a 4m a 6 a 52 a 2e a 3q a 6 a r7q a iu a 12 a 5i a m a 2e a ba a geu a",
  "13a a 1om a mk a 3k a 1o a 40 a 7q a 9i a 3a a ae a 2u a 2u a bq a 2u a l2 a 6u a 1y a f5i a",
  "2e a 3q a lf8 1e 1ts a bq a 192 a 3o6 a"]

/-- Numeric characters above code point 127 that are no letters or digits. -/
def numerals : CodeSet := .ofGaps [
  "1e 2 5 1 2 3 1th 6 ag 6 3c 3 3p 7 61 7 h 9 c1 a tx k oh 3 73 a dc 1 1at 1 3 6 6 a 5i 1f 2 5",
  "k6 1o 26 m hi u 12h 1 ll 1 p 9 e 3 9j 4 3u a u 8 1 f w a 13 f mxy a 8w 6 hjl 19 c 1l h 2 9h r",
  "10 4 t 1 8 1 3q 5 w2 8 p 7 13 9 23 5 m 6 4g 2 2 g 2 1a 1s 9 1g 2 u 3 23 5 2w 8 o 8 15 7 96 6",
  "9s v 4e a 16 4 34 7 3q k aj k 11h 2 by 9 o7 j nn l tn 33 e0c 7 m6 n jt5 k 30 p 47i 9 pt 1n 1",
  "3 1 4 24 19 1 f qq d"]

/-- Characters above code point 127 that are shown as they are in quoted text and are no word
characters. -/
def signs : CodeSet := .ofGaps [
  "x 9 1 2 1 4 2 1 1 3 2 1 3 1 n 1 v 1 cq 4 c e 5 7 1 1 1 3l 5 1 8 1 5 2 1 1 32 1 3v 8 5s 6 15 2",
  "2 3 1 1j 17 2 h m 1 3 17 l a 4 2 1 2r 1 1 7 1 7 2 7 f 2 1 e 3 1 u r 2j b 1m 9 2 4 3 3 m 4 1 9",
  "1 3 1 5 2 f q 3 2 1 15 1 f 8 16 o 1 x 1i 3 1 i 1 7 a 4 a 1 g 3 1k 1 1 7 2 2 2 3 9 1 a 2 e 2 6",
  "2 1 2 2 3 1k 1 1 5 4 2 2 3 3 1 u 2 3 2 a 3 1k 1 1 8 1 3 1 3 k 2 c 2 8 6 1 3 1k 1 1 7 2 2 2 3",
  "7 3 a 2 c 1 h 1 1n 5 3 3 1 4 9 1 r 8 5 5 1j 1 1 7 1 3 1 4 7 2 b 2 j 1 7 1 1 4 1j 1 1 7 1 3 1",
  "4 7 2 b 2 s 4 1j 2 1 7 1 3 1 4 1 1 7 1 a 2 l 1 7 3 1y 1 4 6 1 1 1 8 i 3 1o 1 2 7 4 1 7 9 a 2",
  "2d 1 2 9 b 6 1f v k c 1d n 5 b 1 10 1 f 1 d 28 k b 6 6 4 4 3 1 3 2 7 3 4 d c 1 1 a 6 2j 1 gx",
  "c 13 a 2u 1 h8 2 18 2 26 3 10 4 s 5 r 2 u 2 1s z 1 4 1 1 y e 1 1 39 2 y 1 3a c 4 c 4 1 3 2 48",
  "y n 5 2 2 1h a 1 t 2 1 w 7 1 6 2 v 1d 5 1b h l 11 1 3 u d 1k e 8 4 10 k 3 5 1q 2 1s 8 8 p 4 1",
  "6 1 2 3 5i 1s cd 1 1 3 b 3 d 3 d 3 d 2 h o 8 1b r 5 b 5 h x f x f 2 1 4 1 2 a 1 1 3 5 6 1 1 1",
  "1 1 1 4 1 b 2 4 5 5 4 1 1 1m 2 4 if p b 29 26 m hi u rk 2 w 1 2x 6d 6 4 3 7 4 1 2 34 1 e 1 2o",
  "27 1 1a y q 1 2h c 5y q c 5 4 3 p 9 7 5 2 5 3 2h 4 3 1 2i 1 44 2 4 a w 10 s v b u 8 1 f w a",
  "13 f 8w 534 1s h3k 1j 1j 2 7h 3 2n g v 2 28 8 8 n 9 2 2v 2 3b 1 3 1 4 1 n a 9 4 1m 4 8 2 1e i",
  "8 2 g i 6 3 1 1 2 1 12 a n d b 1 w 4 1b r g 2 5 1 1v e c 1 8 2 e 4 n 3 1 3 1e 1 1 3 2 2 5 2 1",
  "1 s 2 b 7 3 2 2s 1 e 2 3b b fn4 1 a 1 3s h aj i 3j 1 18 u 6 1f 1 j 1 4 45 f a 7 q 6 q b 3e 7",
  "1 7 d 2 76 3 1g 9 1l h 2 3 1 d 3 1 1b 1a 6a 1 45 5 10 1 1c 1 bi 1 kn 1 v 2 4m 1 v 1 5d 3 1 2",
  "5 4 14 3 4 1 g 9 12 1 20 1 s 2 9 7 1u 7 2h 4 av 4 ar 3 48 b 4 5 14 8 3a 3 1h m y 1 2 2 a 4 19",
  "d 1 5 1p 3 10 e b 4 1 2 18 3 a 3 1c e 4 b b 1 1 3 24 j 2y 1 1h c l 4 1j 2 1 7 2 2 2 3 9 1 a 2",
  "2 7 3 5 5c i 4 5 a 2 1 2 29 k 2 1 6g 7 2 w 4 2 2a k s d 1q d 1 1 2r f g 4 6k g 6s 6 1 2 2 4 1",
  "1 1 5 3u 7 2 7 1 1 1 1 s a 14 7 1 d 9 b 1a j 1 5 b0 8 1 8 1 5 16 2 w m 1 e 3e 6 3 1 1 2 1 7 1",
  "1 1u 5 1 2 1 5 9n 6 64 t d 1 vk 5 29o 2 bjv 2 3k 6 1m g 4 2 nl 4 50 1 1 1j 7 4 27 1 1 1 b 2",
  "f56 4 3mo 1a 2 n 9 38 1o 6u a 13 2 22 8 34 l 1y 56 2f oa 1 p 1 v 1 p 1 v 1 p 1 v 1 p 1 v 1 p",
  "1 1o i4 f 5 1 f 11s 7 1 h 2 7 1 2 1 5 79 7 o 1 9q 1 1p 4 f 1 15c 7 31 7 j 2 ng 1 3 1 3h 1 ch",
  "2 7i 18 4 2s c f 2 f 1 f 1 11 n 4h 1k t d 18 4 9 7 2 e 6 4a rc 5 g 3 d 3 38 c 2h 7 c 4 1 f c",
  "4 1k 8 a 6 14 8 u 2 2 26 9g c e 2 5 3 5 3 7 9 t 3 b 5 6 a a 6 8 8 7 9 43 1 1j gvud 6o"]

def isAsciiLetter : Bool :=
  ('a' ≤ c && c ≤ 'z') || ('A' ≤ c && c ≤ 'Z')

def isAsciiDigit : Bool :=
  '0' ≤ c && c ≤ '9'

def isAsciiWord : Bool :=
  isAsciiLetter c || isAsciiDigit c || c == '_'

def isAsciiBlank : Bool :=
  c == ' ' || (9 ≤ c.toNat && c.toNat ≤ 13)

def isLetter : Bool :=
  if c.toNat < 128 then isAsciiLetter c else letters.contains c.toNat

def isDigit : Bool :=
  if c.toNat < 128 then isAsciiDigit c else decimals.contains c.toNat

def isWord : Bool :=
  if c.toNat < 128 then isAsciiLetter c || isAsciiDigit c || c == '_'
  else letters.contains c.toNat || decimals.contains c.toNat || numerals.contains c.toNat

def isPrintable : Bool :=
  if c.toNat < 128 then 32 ≤ c.toNat && c.toNat < 127 else isWord c || signs.contains c.toNat

def isBlank : Bool :=
  let n := c.toNat
  (9 ≤ n && n ≤ 13) || (28 ≤ n && n ≤ 32) || n == 0x85 || n == 0xa0 || n == 0x1680
    || (0x2000 ≤ n && n ≤ 0x200a) || n == 0x2028 || n == 0x2029 || n == 0x202f || n == 0x205f
    || n == 0x3000

end PerlJava.Text
