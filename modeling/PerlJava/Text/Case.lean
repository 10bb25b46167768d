/-!
# Capital and small letters

The case mappings of Unicode 14. A table lists runs of code points that are mapped by the same
difference: the distance from the start of the run before, the number of points, the step from one
point to the next, and the difference, in base 36. For a single point the middle two are left out.
-/

namespace PerlJava.Text

/-- Code points that are mapped by the same difference. -/
structure CaseRun where
  first : Nat
  count : Nat
  step : Nat
  difference : Int
deriving Repr, DecidableEq

namespace CaseRun

def readNumber (text : String) : Int :=
  let digit (c : Char) : Nat :=
    if '0' ≤ c ∧ c ≤ '9' then c.toNat - '0'.toNat else c.toNat - 'a'.toNat + 10
  match text.toList with
  | '-' :: digits => -(digits.foldl (fun n c => n * 36 + digit c) 0 : Nat)
  | digits => (digits.foldl (fun n c => n * 36 + digit c) 0 : Nat)

def ofRows (rows : List String) : Array CaseRun :=
  ((" ".intercalate rows).splitOn " ").foldl (fun runs entry =>
    let last := (runs.back?.map (·.first)).getD 0
    match (entry.splitOn ",").map readNumber with
    | [distance, difference] => runs.push ⟨last + distance.toNat, 1, 1, difference⟩
    | [distance, count, step, difference] =>
      runs.push ⟨last + distance.toNat, count.toNat, step.toNat, difference⟩
    | _ => runs) #[]

def contains (r : CaseRun) (n : Nat) : Bool :=
  r.first ≤ n && (n - r.first) % r.step == 0 && (n - r.first) / r.step < r.count

def target (r : CaseRun) (n : Nat) : Nat :=
  (n + r.difference).toNat

def source? (r : CaseRun) (n : Nat) : Option Nat :=
  let source := (n - r.difference).toNat
  if r.contains source then some source else none

end CaseRun

/-- Small letters above code point 127 with a single capital letter. -/
def capitalRuns : Array CaseRun := CaseRun.ofRows [
  "51,kn 17,n,1,-w o,7,1,-w 7,3d 2,o,2,-1 1c,-6g 2,3,2,-1 7,8,2,-1 h,n,2,-1 1b,3,2,-1 5,-8c 1,5f",
  "3,2,2,-1 5,-1 4,-1 6,-1 3,2p 4,-1 1,4j 4,3m 3,3,2,-1 7,-1 5,-1 3,-1 4,2,2,-1 5,-1 4,-1 2,1k",
  "6,-1 1,-2 2,-1 1,-2 2,-1 1,-2 2,8,2,-1 f,-27 2,9,2,-1 j,-1 1,-2 2,-1 4,k,2,-1 16,9,2,-1 p,-1",
  "3,2,1,8cf 3,-1 5,5,2,-1 9,8bj 1,8bg 1,8bi 1,-5u 1,-5q 2,2,1,-5p 3,-5m 2,-5n 1,wnj 4,-5p 1,wnf",
  "2,-5r 2,wmg 1,wn8 2,-5t 1,-5v 1,wn8 1,8af 1,wn5 3,-5v 2,8al 1,-5x 3,-5y 8,89z 3,-62 2,wn7",
  "1,-62 4,wmi 1,-62 1,-1x 1,2,1,-61 2,-1z 6,-63 b,wlx 1,wlu 4n,2c 18,2,2,-1 6,-1 4,3,1,3m",
  "1d,-12 1,3,1,-11 4,h,1,-w h,-v 1,9,1,-w 9,-1s 1,2,1,-1r 3,-1q 1,-1l 4,-1b 1,-1i 1,-8 2,c,2,-1",
  "n,-2e 1,-28 1,7 1,-38 2,-2o 3,-1 3,-1 1h,w,1,-w w,g,1,-28 h,h,2,-1 16,r,2,-1 1j,7,2,-1 d,-f",
  "2,1c,2,-1 40,12,1,-1c 29b,17,1,2bk 19,3,1,2bk l7,6,1,-8 1oo,-4tq 1,-4tp 1,-4tg 1,2,1,-4te",
  "2,-4tf 1,-4t8 1,-4rp 1,r7m 6p,r9g 4,2xy h,raw 37,23,2,-1 4a,-1n 6,1c,2,-1 2n,8,1,8 g,6,1,8",
  "g,8,1,8 g,8,1,8 g,6,1,8 h,4,2,8 f,8,1,8 g,2,1,22 2,4,1,2e 4,2,1,2s 2,2,1,3k 2,2,1,34 2,2,1,3i",
  "1g,2,1,8 e,-5k5 i,2,1,8 g,2,1,8 5,7 a1,-s y,g,1,-g k,-1 ng,q,1,-q 1gg,1c,1,-1c 1d,-1 4,-8bv",
  "1,-8bs 2,3,2,-1 b,-1 3,-1 b,1e,2,-1 2z,2,2,-1 7,-1 d,12,1,-5ls 13,-5ls 6,-5ls nx0,n,2,-1",
  "1s,e,2,-1 4i,7,2,-1 g,v,2,-1 1z,2,2,-1 5,5,2,-1 d,-1 5,2,2,-1 3,1c 3,a,2,-1 u,8,2,-1 j,2,2,-1",
  "9,-1 6,2,2,-1 v,-1 nx,-ps t,28,1,-tzk gk1,q,1,-w yv,14,1,-14 4w,10,1,-14 5b,b,1,-13 c,f,1,-13",
  "g,7,1,-13 8,2,1,-13 1dx,1f,1,-1s 2dc,w,1,-w gww,w,1,-w o8y,y,1,-y"]

/-- Letters above code point 127 with a single small letter. -/
def smallRuns : Array CaseRun := CaseRun.ofRows [
  "5c,n,1,w o,7,1,w 14,o,2,1 1c,-5j 2,3,2,1 7,8,2,1 h,n,2,1 1a,-3d 1,3,2,1 8,5u 1,2,2,1 4,5q 1,1",
  "2,2,1,5p 2,1 3,27 1,5m 1,5n 1,1 2,5p 1,5r 2,5v 1,5t 1,1 4,5v 1,5x 2,5y 1,3,2,1 6,62 1,1 2,62",
  "3,1 2,62 1,1 2,2,1,61 2,2,2,1 4,63 1,1 4,1 8,2 1,1 2,2 1,1 2,2 1,9,2,1 j,9,2,1 j,2 1,2,2,1",
  "4,-2p 1,-1k 1,k,2,1 14,-3m 2,9,2,1 o,8bv 1,1 2,-4j 1,8bs 3,1 2,-5f 1,1x 1,1z 1,5,2,1 8a,2,2,1",
  "6,1 9,38 7,12 2,3,1,11 4,1s 2,2,1,1r 3,h,1,w i,9,1,w 18,8 9,c,2,1 s,-1o 3,1 2,-7 1,1",
  "3,3,1,-3m 3,g,1,28 g,w,1,w 28,h,2,1 16,r,2,1 1i,f 1,7,2,1 f,1c,2,1 2p,12,1,1c 29b,12,1,5ls",
  "13,5ls 6,5ls k3,28,1,tzk 28,6,1,8 1pc,17,1,-2bk 19,3,1,-2bk 8z,23,2,1 4e,-5vj 2,1c,2,1",
  "2w,8,1,-8 g,6,1,-8 g,8,1,-8 g,8,1,-8 g,6,1,-8 h,4,2,-8 f,8,1,-8 w,8,1,-8 g,8,1,-8 g,8,1,-8",
  "g,2,1,-8 2,2,1,-22 2,-9 c,4,1,-2e 4,-9 c,2,1,-8 2,2,1,-2s e,2,1,-8 2,2,1,-34 2,-7 c,2,1,-3k",
  "2,2,1,-3i 2,-9 8a,-5st 4,-6gv 1,-6di 7,s 1a,g,1,g z,1 mr,q,1,q 1fu,1c,1,1c 2o,1 2,-8af 1,-2xy",
  "1,-89z 3,3,2,1 6,-8bg 1,-8al 1,-8bj 1,-8bi 2,1 3,1 9,2,1,-8cf 2,1e,2,1 2z,2,2,1 7,1 nym,n,2,1",
  "1s,e,2,1 4i,7,2,1 g,v,2,1 1z,2,2,1 4,-r9g 1,5,2,1 d,1 2,-wmg 3,2,2,1 6,a,2,1 k,-wn8 1,-wnj",
  "1,-wnf 1,-wn5 1,-wn8 2,-wlu 1,-wmi 1,-wlx 1,ps 1,8,2,1 g,-1c 1,-wn7 1,-raw 1,2,2,1 9,1",
  "6,2,2,1 v,1 h7w,q,1,w yn,14,1,14 4w,10,1,14 5c,b,1,13 c,f,1,13 g,7,1,13 8,2,1,13 1d8,1f,1,1s",
  "2e8,w,1,w gww,w,1,w o8w,y,1,y"]

/-- Letters whose capital form has several characters: the letter and its form, in base 36. -/
def longCapitals : List (Nat × String) :=
  ((" ".intercalate [
  "67.2b.2b 95.jg.26 ds.22.lo pc.pl.lk.ld q8.px.lk.ld 13b.111.11u 61i.20.mp 61j.2c.lk",
  "61k.2f.lm 61l.2h.lm 61m.1t.ji 66o.px.lv 66q.px.lv.lc 66s.px.lv.ld 66u.px.lv.n6 680.64o.pl",
  "681.64p.pl 682.64q.pl 683.64r.pl 684.64s.pl 685.64t.pl 686.64u.pl 687.64v.pl 688.64o.pl",
  "689.64p.pl 68a.64q.pl 68b.64r.pl 68c.64s.pl 68d.64t.pl 68e.64u.pl 68f.64v.pl 68g.65k.pl",
  "68h.65l.pl 68i.65m.pl 68j.65n.pl 68k.65o.pl 68l.65p.pl 68m.65q.pl 68n.65r.pl 68o.65k.pl",
  "68p.65l.pl 68q.65m.pl 68r.65n.pl 68s.65o.pl 68t.65p.pl 68u.65q.pl 68v.65r.pl 68w.67c.pl",
  "68x.67d.pl 68y.67e.pl 68z.67f.pl 690.67g.pl 691.67h.pl 692.67i.pl 693.67j.pl 694.67c.pl",
  "695.67d.pl 696.67e.pl 697.67f.pl 698.67g.pl 699.67h.pl 69a.67i.pl 69b.67j.pl 69e.69m.pl",
  "69f.pd.pl 69g.p2.pl 69i.pd.n6 69j.pd.n6.pl 69o.pd.pl 69u.6a2.pl 69v.pj.pl 69w.p5.pl",
  "69y.pj.n6 69z.pj.n6.pl 6a4.pj.pl 6aa.pl.lk.lc 6ab.pl.lk.ld 6ae.pl.n6 6af.pl.lk.n6",
  "6aq.px.lk.lc 6ar.px.lk.ld 6as.pt.lv 6au.px.n6 6av.px.lk.n6 6b6.6be.pl 6b7.q1.pl 6b8.pb.pl",
  "6ba.q1.n6 6bb.q1.n6.pl 6bg.q1.pl 1dkw.1y.1y 1dkx.1y.21 1dky.1y.24 1dkz.1y.1y.21",
  "1dl0.1y.1y.24 1dl1.2b.2c 1dl2.2b.2c 1dlf.11g.11i 1dlg.11g.111 1dlh.11g.117 1dli.11q.11i",
  "1dlj.11g.119"]).splitOn " ").filterMap fun entry =>
    match (entry.splitOn ".").map fun part => (CaseRun.readNumber part).toNat with
    | letter :: form => some (letter, String.ofList (form.map Char.ofNat))
    | [] => none

def sameLetters : List (List Nat) := [
  [0x69, 0x131], [0x73, 0x17f], [0xb5, 0x3bc], [0x345, 0x3b9, 0x1fbe], [0x390, 0x1fd3], [0x3b0,
  0x1fe3], [0x3b2, 0x3d0], [0x3b5, 0x3f5], [0x3b8, 0x3d1], [0x3ba, 0x3f0], [0x3c0, 0x3d6], [0x3c1,
  0x3f1], [0x3c2, 0x3c3], [0x3c6, 0x3d5], [0x432, 0x1c80], [0x434, 0x1c81], [0x43e, 0x1c82],
  [0x441, 0x1c83], [0x442, 0x1c84, 0x1c85], [0x44a, 0x1c86], [0x463, 0x1c87], [0x1c88, 0xa64b],
  [0x1e61, 0x1e9b], [0xfb05, 0xfb06]]

namespace CaseRun

def apply (runs : Array CaseRun) (n : Nat) : Nat :=
  ((runs.find? (·.contains n)).map (·.target n)).getD n

end CaseRun

def capital (c : Char) : String :=
  if c.toNat < 128 then c.toUpper.toString
  else
    match longCapitals.lookup c.toNat with
    | some form => form
    | none => (Char.ofNat (CaseRun.apply capitalRuns c.toNat)).toString

def capitals (text : String) : String :=
  String.join (text.toList.map capital)

def small (c : Char) : Char :=
  if c.toNat < 128 then c.toLower else Char.ofNat (CaseRun.apply smallRuns c.toNat)

def withSmall (n : Nat) : List Nat :=
  let ascii := if 'a'.toNat ≤ n ∧ n ≤ 'z'.toNat then [n - 32] else []
  n :: ascii ++ smallRuns.toList.filterMap (·.source? n)

def caseVariants (c : Char) : List Char :=
  let n := (small c).toNat
  let forms := (sameLetters.find? (·.contains n)).getD [n]
  (forms.flatMap withSmall).map Char.ofNat

end PerlJava.Text
