/-!
# Characters of hosts

What becomes of the characters beyond ASCII in the name of a host: which are not allowed, which are
left out, which are read as others, and which are composed of others; and what the rules for labels
ask of them. A character that is read as others counts as these. Sets are written as the distances,
in base 36, between the places where they begin and end.
-/

namespace Retrieval.Host.Table

def disallowed : List String :=
  ["3k w k8 2 6 4 7 1 1 1 k 1 7x 1 33 1 12 2 1e 2 3 1 1j 8 r 4 6 h m 1 5c 1 1c 2 1n 2 2t e",
    "1n 2 1d 2 f 1 s 2 1 1 b 5 v 9 22 1 4h 1 8 2 2 2 m 1 7 1 1 3 4 2 9 2 2 2 4 8 1 4 2 1 5 2",
    "p 2 3 1 6 4 2 2 m 1 7 1 2 1 2 1 2 2 1 1 5 4 2 2 3 3 1 7 4 1 1 7 h a 3 1 9 1 3 1 m 1 7 1",
    "2 1 5 2 a 1 3 1 3 2 1 f 4 2 c 7 7 1 3 1 8 2 2 2 m 1 7 1 2 1 5 2 9 2 2 2 3 7 3 4 2 1 5 2",
    "i a 2 1 6 3 3 1 4 3 2 1 1 1 2 3 2 3 3 3 c 4 5 3 3 1 4 2 1 6 1 e l 5 d 1 3 1 n 1 g 2 9 1",
    "3 1 4 7 2 1 3 2 1 2 4 2 a 7 m 1 3 1 n 1 a 1 5 2 9 1 3 1 4 7 2 6 2 1 4 2 a 1 3 c d 1 3 1",
    "1f 1 3 1 6 4 g 2 q 1 3 1 i 3 o 1 9 1 1 2 7 3 1 4 6 1 1 1 8 6 a 2 3 c 1m 4 t 11 2 1 1 1 5",
    "1 o 1 1 1 n 2 5 1 1 1 7 1 a 2 4 w 20 1 10 4 13 1 10 1 f 1 d 11 4g 13 1 5 1 2 3z 2 6g 1 4",
    "2 7 1 1 1 4 2 15 1 4 2 x 1 4 2 7 1 1 1 4 2 f 1 1l 1 4 2 1v 2 w 3 q 6 2e 2 6 2 hs 1 s 3",
    "2h 7 m 9 o 9 k c d 1 3 1 2 c 1g 2 14 2 a 6 a 6 6 1 7 1 b 6 2h 7 17 5 1y a v 1 c 4 c 4 1",
    "3 16 2 5 b 18 4 q 6 b 3 1q 2 1t 1 t 2 b 6 a 6 e 2 v 1d 25 3 1b 1 38 8 1o 3 f 3 1o 7 17 2",
    "b 8 17 5 eu 2 6 2 12 2 6 2 8 1 1 1 1 1 1 1 v 2 1h 1 f 1 e 2 6 1 j 2 3 1 9 1 e 2 k 3 1 7",
    "1e 3 1 b 2 2 r 1 d 3 x f x f 1e 1 28 1 8 4 if p b l 14 k 1co 2 w 1 9p 5 19 1 1 5 1 2 1k",
    "7 2 e o 9 7 1 7 1 7 1 7 1 7 1 7 1 7 1 7 1 3i y q 1 2h c 5y 16 1s 1 2e 2 2v 5 17 1 1f 1",
    "16 1 2c c 1b 1 bm 1 4 1 g 1 m9g 3 1j 9 9o k 54 8 5n 5 2 1 1 1 5 o 1n 3 a 6 1k 8 1y 8 c 6",
    "38 b u 3 26 1 b 4 x 1 1j 9 e 2 a 2 2v o s a 6 2 6 2 6 9 7 1 7 1 1o 4 3i 2 a 6 8mc c n 4",
    "1d 6is a6 2 2y 12 7 c 5 5 q 1 5 1 1 1 2 1 2 1 3h g cd 2 1i 7 1 w y 1 6 7 g 1 x 2 j 1 4 4",
    "5 1 3r 2 1 1 4f 1 u 3 6 2 6 2 6 2 3 3 7 1 7 h c 1 q 1 j 1 2 1 f 2 e y 3f 5 3 4 19 3 2g 1",
    "d 3 1 1b 1a 3m t 3 1d f s 4 10 9 u 5 17 5 u 1 11 4 e 16 4e 2 a 6 10 4 10 4 14 8 1g b c 1",
    "f 1 7 1 2 1 b 1 f 1 7 1 2 1v 8n 9 m a 8 o 6 1 16 1 9 1x 6 2 1 1 18 1 2 3 1 2 n 1 20 8 9",
    "1c j 1 2 5 x 3 r 5 1 1s 1k 4 k 2 1e 1 2 5 8 1 3 1 t 2 3 4 a 7 9 7 1s w 13 4 c 9 1i 3 t 2",
    "r 5 q 7 4 c 7 28 21 1j 1f d 1f 7 1a 8 a 86 v 1 16 1 3 2 2 23 17 8 16 m q 12 s k n 9 26 4",
    "10 9 1q 1 5 d p 7 a 6 1h 1 i 8 13 9 2o 1 k b i 1 1b 1q 7 1 1 1 4 1 f 1 b 6 1n 5 a 6 4 1",
    "8 2 2 2 m 1 7 1 2 1 5 1 a 2 2 2 3 2 1 6 1 5 7 2 7 3 5 3v 2k 1 5 u 20 8 a 4m 1i 2 12 y 1x",
    "b a 6 d j 1m 6 a 1i r 2 f 4 n 55 1o 2s 2b c 8 2 1 2 8 1 2 1 u 1 2 2 c 9 a 1y 8 2 1a 2 b",
    "r 20 8 2b d 21 7 a 6u 9 1 19 1 e a t 3 w 2 m 1 e 21 7 1 2 1 18 3 1 1 2 1 9 8 a 6 6 1 2 1",
    "11 1 2 1 6 7 a 8m p 7 h 1 15 3 s 2e 1 f 1e d pn 2u 33 1 5 b 5g 218 2r d ts g m 33e g7",
    "6nt ft 7 v 1 a 4 29 1 a 6 u 2 6 a 1y a a 1 7 1 l 5 j j4 2j 2t 23 4 1l 7 h 1s 5 b 2 e 4qg",
    "8 ye 16 9 6w7 4 1 7 1 2 1 83 f 1 t 3 2 1 e 4 8 b0 1s4 2z 5 d 3 9 7 a 2 8 3mk 1a 2 n 9 38",
    "1o 6u a 13 2 22 8 34 l 1y 3e k c k c 2f 9 p 3r 2d 1 1z 1 2 2 1 2 2 2 4 1 c 1 1 1 7 1 1t",
    "1 4 2 8 1 7 1 s 1 4 1 5 1 1 3 7 1 9g 2 84 2 ji f 5 1 f uo v 6 6 5x 7 1 h 2 7 1 2 1 5 5",
    "1q x 1 34 19 3 e 2 a 4 2 8w v h 1m 5 1 cw 16 km 7 1 4 1 2 1 f 1 5h 2 g 15 24 4 a 4 2 lt",
    "1w 24 1p 5e 4 1 r 1 2 1 1 2 1 1 a 1 4 1 1 1 1 6 1 4 1 1 1 1 1 1 3 1 2 1 1 2 1 1 1 1 1 1",
    "1 1 1 1 2 1 1 2 4 1 7 1 4 1 4 1 1 1 a 1 h 5 3 1 5 1 h 1g 2 7i 18 4 2s c f 2 f 1 f 1 11 b",
    "4t 1k t d 18 4 9 7 2 e 6 4a rc 4 h 3 d 3 3b 4 2n 6 c 4 1 f c 4 1k 8 a 6 14 8 u 2 2 26 9g",
    "c e 2 d 3 9 7 1a 1 7 8 e 4 9 7 9 7 43 1 1j 11 a sm wyo w 37e 6 66 2 4g2 e 5rl 2e7 2w 1 b",
    "1 4q 1 1r 1 2n 1 2m 15u 3t7 5 38g f9e8 6o 47bk"]

def ignored : List String :=
  ["4t 1 ip 1 2rz 2 18z 2 2d 5 1kr 1 2c 5 5 6 3ck 1 14ez g 6n 1 4g 1 11bz 4 43z 8 h479 6o"]

/-- The marks that combine with the character before them. -/
def marks : List String :=
  ["lc 1x 1 9 1 w 7n 7 7b 19 1 1 1 2 1 2 1 1 20 b 1c l g 1 2t 7 2 6 2 2 1 4 z 1 u r 2j b 1m",
    "9 9 1 o 4 1 9 1 3 1 5 17 3 3b f 1 x 1i 3 1 i 1 7 a 2 t 3 1k 1 1 7 2 2 2 3 9 1 a 2 q 1 2",
    "3 1k 1 1 5 4 2 2 3 3 1 u 2 3 1 b 3 1k 1 1 8 1 3 1 3 k 2 m 6 1 3 1k 1 1 7 2 2 2 3 7 3 a 2",
    "u 1 1n 5 3 3 1 4 9 1 14 5 1l 7 1 3 1 4 7 2 b 2 t 3 1k 1 1 7 1 3 1 4 7 2 b 2 s 4 1j 2 1 7",
    "1 3 1 4 9 1 a 2 t 3 1y 1 4 6 1 1 1 8 i 2 1p 1 1 8 c 8 2q 1 1 a b 6 22 2 r 1 1 1 1 1 4 2",
    "1d k 1 2 5 b 1 10 9 1 2s k n 4 4 3 1 3 2 7 3 4 d c 1 1 a 4 jj 3 qa 3 t 3 t 2 u 2 1u u 9",
    "1 4n 2 y 1 3a c 4 c 63 5 1l a 1 t 2 1 1c h 1r 5 1b h 12 9 c 3 u d 1k e 1c k 48 3 1 l 4 1",
    "6 1 2 3 5i 1m 1 5 ek 2 5e x 2da 3 3x 1 2o w fe 6 2x 2 n9w 4 1 a w 2 28 2 7k 1 3 1 4 1 n",
    "5 4 1 2b 2 1e i q i d 1 12 8 p d 18 4 1b e 10 1 1v e c 1 8 2 19 3 1e 1 1 3 2 2 5 2 1 1",
    "15 5 5 2 6k 8 1 2 fn4 1 ld g a6 2 gt 1 6a 1 45 5 1ae 3 1 2 5 4 14 3 4 1 4l 2 fx 4 ar 2",
    "49 b 4v 3 1h f 1k 4 19 b 1x 3 10 e g 2 18 1 c 3 1c e 8 4 1 2 2k c 6 1 4g c l 4 1j 2 1 7",
    "2 2 2 3 9 1 a 2 2 7 3 5 5c i n 1 29 k 6j 7 2 9 r 2 2a h 2y d 2t f 74 f 6t 6 1 2 2 4 1 1",
    "1 2 3x 7 2 7 3 1 s a 14 7 1 4 8 1 9 b 1a g b9 8 1 8 2a m 1 e 3e 6 3 1 1 2 1 7 1 1 1u 5 1",
    "2 1 5 9n 4 f09 5 1n 7 t4 1 1 1j 7 4 29 1 b 2 f57 2 43q 5 3 6 8 8 2 7 u 4 44 3 1iz 1j 4",
    "1e 8 1 e 1 m 5 1 f 11s 7 1 h 2 7 1 2 1 5 79 7 c5 4 15s 7 31 7"]

/-- The marks behind which a joiner may stand. -/
def viramas : List String :=
  ["1u5 1 3j 1 3j 1 3j 1 3j 1 3j 1 3j 1 3j 1 31 2 g 1 3g 1 33 1 3j 1 5l 1 50 2 1cp 1 v 1 4d 1",
    "i5 1 6b 1 2t 2 1y 2 3gr 1 o7a 1 11 1 47 1 3y 1 30 1 8l 1 6u 1 imp 1 16u 1 1k 1 1l 1 3d 2",
    "3v 1 38 1 50 1 2q 1 6s 1 3j 1 70 1 3j 1 3a 1 38 1 7h 1 77 2 4h 1 2b 1 i 1 29 1 bp 1 78 2",
    "29 1"]

/-- The letters that join what follows them. -/
def joiningBefore : List String :=
  ["17k 1 5 1 1 1 1 5 4 d 1 7 1 2 z 2 8 g i 12 1 2 9 1 1 1 1 2 14 3 2 1 i 3 5 4 1 9 1 1 1 1 1",
    "2 v b 3 b 6h 4 1 1 22 1 1 8 319 1 o 2g f y 1 1 sd1 1f gdb 1c c m 2 8 11 4 d 3b 2 1 6 3y 3",
    "1z k 1s 2 1i 14 a 2 1 3w 4 2 4 2 k 8 1o 2 e 1b7o 2 4 c 1 4 1 7 1 2 1 1 2 1 1 a 1 4 1 1 1 1",
    "6 1 4 1 1 1 1 1 1 3 1 2 1 1 2 1 1 1 1 1 1 1 1 1 1 2 1 1 2 4 1 7 1 4 1 4 1 1 2 2 1 1 2 3 1",
    "8 1 4 1 3 5 2 4 3 1 8 1 4 1 3"]

/-- The letters that join what comes before them. -/
def joiningAfter : List String :=
  ["17k 1 1 u 1 a z 2 1 3 1 2n 1 1 o 2 a 3 2 1 g 1 1 u t q 6h 6 22 1 1 b 316 1 o 2g f y 1 1",
    "sd1 1e gda 2q x 3v 6 3y 3 21 i 1s 2 1i 14 a 2 1 3o 3g 1b7n 4 1 r 1 2 1 1 2 1 1 a 1 4 1 1 1",
    "1 6 1 4 1 1 1 1 1 1 3 1 2 1 1 2 1 1 1 1 1 1 1 1 1 1 2 1 1 2 4 1 7 1 4 1 4 1 1 1 a 1 h 5 3",
    "1 5 1 h"]

/-- The characters that are read as others. -/
def recast : List String :=
  ["4g 1 7 1 1 1 4 1 2 4 2 3 1 3 1 n 1 7 x 1 1 1 1 1 1 1 1 1 1 1 1 1 1 1 1 1 1 1 1 1 1 1 1 1 1",
    "1 1 1 1 1 1 1 1 1 1 1 1 1 1 1 1 1 1 1 1 1 1 1 1 3 1 1 2 1 1 1 1 1 1 3 1 1 1 1 1 1 1 2 1 1",
    "1 1 1 1 1 1 1 1 1 1 1 1 1 1 1 1 1 1 1 1 1 1 1 1 1 1 1 1 1 1 1 1 1 1 1 1 1 1 1 1 1 1 1 2 1",
    "1 1 1 1 1 1 2 1 1 1 2 1 3 2 4 1 2 1 3 3 2 1 2 1 1 1 1 1 2 1 1 2 1 1 2 1 3 1 1 1 2 3 1 7 a",
    "1 1 1 1 1 1 1 1 1 1 1 1 1 1 2 1 1 1 1 1 1 1 1 1 1 1 1 1 1 1 1 1 2 4 1 3 1 1 1 1 1 1 1 1 1",
    "1 1 1 1 1 1 1 1 1 1 1 1 1 1 1 1 1 1 1 1 1 1 1 1 1 1 1 1 1 1 1 1 1 1 1 1 1 1 1 1 1 1 1 1 1",
    "1 1 1 1 7 2 1 2 2 1 1 4 1 1 1 1 1 1 1 1 2p 9 v 6 2 5 2j 2 1 3 16 1 1 1 1 1 1 1 3 1 3 2 4 7",
    "1 1 1 2 1 h 1 9 z 8 1 1 1 1 1 1 1 1 1 1 1 1 1 1 1 1 1 1 1 1 1 1 1 1 1 3 1 2 1 1 1 2 2 1f",
    "1c 1 1 1 1 1 1 1 1 1 1 1 1 1 1 1 1 1 1 1 1 1 1 1 1 1 1 1 1 1 1 1 1 1 9 1 1 1 1 1 1 1 1 1 1",
    "1 1 1 1 1 1 1 1 1 1 1 1 1 1 1 1 1 1 1 1 1 1 1 1 1 1 1 1 1 1 1 1 1 1 1 1 1 1 1 1 1 1 1 2 1",
    "1 1 1 1 1 1 1 1 1 1 1 1 2 1 1 1 1 1 1 1 1 1 1 1 1 1 1 1 1 1 1 1 1 1 1 1 1 1 1 1 1 1 1 1 1",
    "1 1 1 1 1 1 1 1 1 1 1 1 1 1 1 1 1 1 1 1 1 1 1 1 1 1 1 1 1 1 1 1 1 1 1 1 1 1 1 1 1 1 1 1 1",
    "1 1 1 1 1 1 1 1 1 1 1 1 1 1 1 1 1 1 2 12 1c 1 6l 4 kf 8 3g 2 1 1 2b 1 2 1 y 3 2 1 71 2 k5",
    "1 3j 1 14 2 1a 1 1i 1 9 1 4 1 4 1 4 1 c 1 9 1 1 5 7 1 h 1 9 1 4 1 4 1 4 1 c 1 7h 1 5 1 1a",
    "1 l7 6 1oi 9 7 17 2 3 30 3 1 b 1 i 1 s d 1 y 11 1s 1 1 1 1 1 1 1 1 1 1 1 1 1 1 1 1 1 1 1 1",
    "1 1 1 1 1 1 1 1 1 1 1 1 1 1 1 1 1 1 1 1 1 1 1 1 1 1 1 1 1 1 1 1 1 1 1 1 1 1 1 1 1 1 1 1 1",
    "1 1 1 1 1 1 1 1 1 1 1 1 1 1 1 1 1 1 1 1 1 1 1 1 1 1 1 1 1 1 1 1 1 1 1 1 1 1 1 1 1 1 1 1 1",
    "1 1 1 1 1 1 1 1 1 1 1 1 1 1 1 1 1 1 1 1 1 1 1 1 1 1 1 1 1 1 1 1 1 1 1 1 1 1 1 5 2 2 1 1 1",
    "1 1 1 1 1 1 1 1 1 1 1 1 1 1 1 1 1 1 1 1 1 1 1 1 1 1 1 1 1 1 1 1 1 1 1 1 1 1 1 1 1 1 1 1 1",
    "1 1 1 1 1 1 1 1 1 1 1 1 1 1 1 1 1 1 1 1 1 1 1 1 1 1 1 1 1 1 1 1 1 1 1 1 1 1 1 1 1 1 1 1 1",
    "1 1 1 1 9 8 8 6 a 8 8 8 8 6 b 1 1 1 1 1 1 1 8 8 1 1 1 1 1 1 1 1 1 1 1 1 1 1 2 1c 2 3 2 e 2",
    "9 3 1 4 4 1 3 3 1 4 8 2 3 2 8 1 b 6 1 5 1 n 1 3 2 1 2 4 1 1 1 8 3 d 1 7 1 g 2 2 r 1 d b 1",
    "2f 4 1 3 1 b 1 2 2 5 2 3 1 1 1 1 1 1 1 4 1 3 1 7 1 6 4 5 6 1c 9 1 4i 2 1 2 6w 2 8l 14 k 27",
    "10h 1 2v 3 2t 1 83 1c 1c 1 1 3 2 1 1 1 1 1 1 4 1 1 2 1 6 5 1 1 1 1 1 1 1 1 1 1 1 1 1 1 1 1",
    "1 1 1 1 1 1 1 1 1 1 1 1 1 1 1 1 1 1 1 1 1 1 1 1 1 1 1 1 1 1 1 1 1 1 1 1 1 1 1 1 1 1 1 1 1",
    "1 1 1 1 1 1 1 1 1 1 1 1 1 1 1 1 1 1 1 1 1 1 1 1 1 1 1 1 1 1 1 1 1 1 1 1 1 8 1 1 1 4 1 3g 1",
    "8f 1 2b 1 c 5y 16 1 1 1 1f 1 1 3 2o 2 2 1 2n 1 1d 1f 1 16 3 e 2o v 1 14 8 1b 1 8y 1 4 1 g",
    "1 13 mkg 1 1 1 1 1 1 1 1 1 1 1 1 1 1 1 1 1 1 1 1 1 1 1 1 1 1 1 1 1 1 1 1 1 1 1 1 1 1 1 1 1",
    "1 1 1 1 j 1 1 1 1 1 1 1 1 1 1 1 1 1 1 1 1 1 1 1 1 1 1 1 1 1 1 1 1 2 3o 1 1 1 1 1 1 1 1 1 1",
    "1 1 1 3 1 1 1 1 1 1 1 1 1 1 1 1 1 1 1 1 1 1 1 1 1 1 1 1 1 1 1 1 1 1 1 1 1 1 1 1 1 1 1 1 1",
    "1 1 1 1 1 1 1 1 1 1 1 1 1 1 1 1 1 1 1 1 1 1 8 1 1 1 1 2 1 1 1 1 1 1 1 1 4 1 1 1 2 1 1 1 3",
    "1 1 1 1 1 1 1 1 1 1 1 1 1 1 1 1 1 1 1 1 5 1 5 1 1 1 1 1 1 1 1 1 1 1 1 1 1 1 4 1 1 6 1 5 1",
    "1 1 o 5 2 2 o2 4 9 1 6 28 f9c 7i 2 1 1 1 2 a 1 1 1 1 2 2 3 1w 2 2y 12 7 c 5 5 1 1 o 1 5 1",
    "1 1 2 1 2 1 30 x a3 i 1s 2 1i 14 d j 2 1 6 o k 2 b 2 j 1 4 4 3 1 1 1 3r 4 4f 1 u 3 6 2 6 2",
    "6 2 3 3 7 1 7 sx 14 3s 10 4c b 1 f 1 7 1 2 dn 5 1 16 1 9 xx 1f 2ct w gw0 w inq 10 v8 7 2e",
    "6 fz 2d 1 1z 1 2 2 1 2 2 2 4 1 c 1 1 1 7 1 1t 1 4 2 8 1 7 1 s 1 4 1 5 1 1 3 7 1 9g 2 84 2",
    "1e 1m8 1q 1oy y ym 4 1 r 1 2 1 1 2 1 1 a 1 4 1 1 1 1 6 1 4 1 1 1 1 1 1 3 1 2 1 1 2 1 1 1 1",
    "1 1 1 1 1 1 2 1 1 2 4 1 7 1 4 1 4 1 1 1 a 1 h 5 3 1 5 1 h g5 a 5 v 1 w q 3 z 1 33 3 d 18 4",
    "9 7 2 1we a 1ds6 2w 1 b 1 4q 1 1r 1 2n 1 2m"]

/-- What characters are read as, where some of this is in ASCII. An entry is a distance from the one
before, how many characters in a row it is for, and what the first one is read as; each further one
is read as the next character. -/
def plain : List String :=
  ["4g.1.w 8.1.w.lk 2.1.2p 5.1.w.lg 3.2.1e 2.1.w.ld 4.1.w.mf 1.1.1d 1.1.33 2.1.1d.6dg.1g",
    "1.1.1d.6dg.1e 1.1.1f.6dg.1g 36.1.2x.lj 2.1.2x.2y 1.1.2x.2y c.1.30.53 1.1.30.53 9.1.jg.32",
    "1i.1.37 1x.1.2s.am 1.1.2s.am 1.1.2s.am 1.1.30.2y 1.1.30.2y 1.1.30.2y 1.1.32.2y 1.1.32.2y",
    "1.1.32.2y 11.1.2s.3e 1.1.2s.3e 1.1.2s.3e 59.1.2w 2.1.2y 1.1.36 4.1.3b 1.1.3d w.1.w.li",
    "1.1.w.lj 1.1.w.lm 1.1.w.mg 1.1.w.lf 1.1.w.ln 4.1.30 1.1.37 1.1.3c 47.1.w.qh 4.1.1n",
    "6.1.w.ld 1.1.w.lk.ld 52f.1.2p 2.1.2q 2.2.2s 3.8.2v 9.1.33 2.1.34 1.1.36 1.2.38 2.1.3b",
    "1.1.2p 4.1.2q 1.2.2s 5.1.2v 2.1.2z 1.1.31 2.1.33 4.1.34 1.2.38 4.1.3a 7.1.2x 1.1.36 1.2.39",
    "1k.1.2r 4.1.2u r.1.3e 67.1.2p.ji 83.1.w.lv 2.1.w.lv 1.1.w.n6 1.1.w.lk.n6 c.1.w.lv.lc",
    "1.1.w.lv.ld 1.1.w.lv.n6 e.1.w.lw.lc 1.1.w.lw.ld 1.1.w.lw.n6 e.1.w.lk.lc 1.1.w.lk.ld 1.1.2o",
    "e.1.w.ld 1.1.w.lw 2.1.w 1.1.w 1.1.w 1.1.w 1.1.w 1.1.w 1.1.w 1.1.w 1.1.w 1.1.w 1.1.w",
    "d.1.w.mr o.1.w d.1.x.x 2.1.w.lh 9.1.1r.1r 1.1.1r.x 1.1.x.1r m.1.w h.1.1c 1.1.2x 3.6.1g",
    "6.1.17 2.1.1p 1.2.14 2.1.32 1.a.1c a.1.17 2.1.1p 1.2.14 3.1.2p 1.1.2t 1.1.33 1.1.3c 2.1.2w",
    "1.4.2z 4.1.34 1.2.37 d.1.36.37 2g.1.2p.1b.2r 1.1.2p.1b.37 1.1.2r 1.1.4w.2r 2.1.2r.1b.33",
    "1.1.2r.1b.39 3.1.4w.2u 1.2.2v 2.1.2w 1.1.2w 1.1.2w 2.1.2x 1.1.2x 1.1.30 1.1.30 2.1.32",
    "1.1.32.33 3.3.34 3.1.36 1.1.36 3.1.37.31 1.1.38.2t.30 1.1.38.31 2.1.3e 4.1.3e 2.1.2z",
    "2.2.2q 3.1.2t 1.2.2t 3.1.31 1.1.33 5.1.2x 2.1.2u.2p.3c a.1.2s 1.2.2s 2.2.2x 8.1.1d.6dg.1j",
    "1.1.1d.6dg.1l 1.1.1d.6dg.1d.1c 1.1.1d.6dg.1f 1.1.1e.6dg.1f 1.1.1d.6dg.1h 1.1.1e.6dg.1h",
    "1.1.1f.6dg.1h 1.1.1g.6dg.1h 1.1.1d.6dg.1i 1.1.1h.6dg.1i 1.1.1d.6dg.1k 1.1.1f.6dg.1k",
    "1.1.1h.6dg.1k 1.1.1j.6dg.1k 1.1.1d.6dg 1.1.2x 1.1.2x.2x 1.1.2x.2x.2x 1.1.2x.3a 1.1.3a",
    "1.1.3a.2x 1.1.3a.2x.2x 1.1.3a.2x.2x.2x 1.1.2x.3c 1.1.3c 1.1.3c.2x 1.1.3c.2x.2x 1.1.30",
    "1.2.2r 2.1.31 1.1.2x 1.1.2x.2x 1.1.2x.2x.2x 1.1.2x.3a 1.1.3a 1.1.3a.2x 1.1.3a.2x.2x",
    "1.1.3a.2x.2x.2x 1.1.2x.3c 1.1.3c 1.1.3c.2x 1.1.3c.2x.2x 1.1.30 1.2.2r 2.1.31 a.1.1c.6dg.1f",
    "k7.9.1d 9.1.1d.1c 1.1.1d.1d 1.1.1d.1e 1.1.1d.1f 1.1.1d.1g 1.1.1d.1h 1.1.1d.1i 1.1.1d.1j",
    "1.1.1d.1k 1.1.1d.1l 1.1.1e.1c 1.1.14.1d.15 1.1.14.1e.15 1.1.14.1f.15 1.1.14.1g.15",
    "1.1.14.1h.15 1.1.14.1i.15 1.1.14.1j.15 1.1.14.1k.15 1.1.14.1l.15 1.1.14.1d.1c.15",
    "1.1.14.1d.1d.15 1.1.14.1d.1e.15 1.1.14.1d.1f.15 1.1.14.1d.1g.15 1.1.14.1d.1h.15",
    "1.1.14.1d.1i.15 1.1.14.1d.1j.15 1.1.14.1d.1k.15 1.1.14.1d.1l.15 1.1.14.1e.1c.15",
    "l.1.14.2p.15 1.1.14.2q.15 1.1.14.2r.15 1.1.14.2s.15 1.1.14.2t.15 1.1.14.2u.15 1.1.14.2v.15",
    "1.1.14.2w.15 1.1.14.2x.15 1.1.14.2y.15 1.1.14.2z.15 1.1.14.30.15 1.1.14.31.15 1.1.14.32.15",
    "1.1.14.33.15 1.1.14.34.15 1.1.14.35.15 1.1.14.36.15 1.1.14.37.15 1.1.14.38.15 1.1.14.39.15",
    "1.1.14.3a.15 1.1.14.3b.15 1.1.14.3c.15 1.1.14.3d.15 1.1.14.3e.15 1.q.2p q.q.2p q.1.1c",
    "13e.1.1m.1m.1p 1.1.1p.1p 1.1.1p.1p.1p ee.1.2y 1.1.3a oz.1.w 2.1.1a 49.1.w.9ll 1.1.w.9lm",
    "9w.1.14.3cw.15 1.1.14.3cy.15 1.1.14.3cz.15 1.1.14.3d1.15 1.1.14.3d2.15 1.1.14.3d3.15",
    "1.1.14.3d5.15 1.1.14.3d7.15 1.1.14.3d8.15 1.1.14.3da.15 1.1.14.3db.15 1.1.14.3dc.15",
    "1.1.14.3dd.15 1.1.14.3de.15 1.1.14.xz4.15 1.1.14.yvs.15 1.1.14.zc4.15 1.1.14.108s.15",
    "1.1.14.10p4.15 1.1.14.115g.15 1.1.14.1224.15 1.1.14.12ys.15 1.1.14.13f4.15 1.1.14.14bs.15",
    "1.1.14.14s4.15 1.1.14.158g.15 1.1.14.15os.15 1.1.14.1654.15 1.1.14.13p8.15",
    "1.1.14.1350.13ic.15 1.1.14.1350.16f8.15 2.1.14.feo.15 1.1.14.fik.15 1.1.14.fex.15",
    "1.1.14.h5n.15 1.1.14.fis.15 1.1.14.g31.15 1.1.14.fer.15 1.1.14.g2z.15 1.1.14.fh9.15",
    "1.1.14.gg1.15 1.1.14.kco.15 1.1.14.m7f.15 1.1.14.ldg.15 1.1.14.kdk.15 1.1.14.ssx.15",
    "1.1.14.h7j.15 1.1.14.k4l.15 1.1.14.kkq.15 1.1.14.kcp.15 1.1.14.ny6.15 1.1.14.glp.15",
    "1.1.14.mm1.15 1.1.14.rs1.15 1.1.14.nz1.15 1.1.14.gc4.15 1.1.14.fkz.15 1.1.14.gos.15",
    "1.1.14.i1y.15 1.1.14.nhf.15 1.1.14.flt.15 1.1.14.rt3.15 1.1.14.ggk.15 1.1.14.nzh.15",
    "1.1.14.fm9.15 1.1.14.pnu.15 1.1.14.po3.15 d.1.34.38.2t 1.1.1e.1d 1.1.1e.1e 1.1.1e.1f",
    "1.1.1e.1g 1.1.1e.1h 1.1.1e.1i 1.1.1e.1j 1.1.1e.1k 1.1.1e.1l 1.1.1f.1c 1.1.1f.1d 1.1.1f.1e",
    "1.1.1f.1f 1.1.1f.1g 1.1.1f.1h 2a.1.1f.1i 1.1.1f.1j 1.1.1f.1k 1.1.1f.1l 1.1.1g.1c 1.1.1g.1d",
    "1.1.1g.1e 1.1.1g.1f 1.1.1g.1g 1.1.1g.1h 1.1.1g.1i 1.1.1g.1j 1.1.1g.1k 1.1.1g.1l 1.1.1h.1c",
    "1.1.1d.kco 1.1.1e.kco 1.1.1f.kco 1.1.1g.kco 1.1.1h.kco 1.1.1i.kco 1.1.1j.kco 1.1.1k.kco",
    "1.1.1l.kco 1.1.1d.1c.kco 1.1.1d.1d.kco 1.1.1d.1e.kco 1.1.2w.2v 1.1.2t.36.2v 1.1.2t.3a",
    "1.1.30.38.2s 3t.1.1c.m9l 1.1.1d.m9l 1.1.1e.m9l 1.1.1f.m9l 1.1.1g.m9l 1.1.1h.m9l 1.1.1i.m9l",
    "1.1.1j.m9l 1.1.1k.m9l 1.1.1l.m9l 1.1.1d.1c.m9l 1.1.1d.1d.m9l 1.1.1d.1e.m9l 1.1.1d.1f.m9l",
    "1.1.1d.1g.m9l 1.1.1d.1h.m9l 1.1.1d.1i.m9l 1.1.1d.1j.m9l 1.1.1d.1k.m9l 1.1.1d.1l.m9l",
    "1.1.1e.1c.m9l 1.1.1e.1d.m9l 1.1.1e.1e.m9l 1.1.1e.1f.m9l 1.1.1e.1g.m9l 1.1.2w.34.2p",
    "1.1.2s.2p 1.1.2p.39 1.1.2q.2p.36 1.1.33.3a 1.1.34.2r 1.1.2s.31 1.1.2s.31.1e 1.1.2s.31.1f",
    "1.1.2x.39 6.1.34.2p 1.1.32.2p 1.1.qk.2p 1.1.31.2p 1.1.2z.2p 1.1.2z.2q 1.1.31.2q 1.1.2v.2q",
    "1.1.2r.2p.30 1.1.2z.2r.2p.30 1.1.34.2u 1.1.32.2u 1.1.qk.2u 1.1.qk.2v 1.1.31.2v 1.1.2z.2v",
    "1.1.2w.3e 1.1.2z.2w.3e 1.1.31.2w.3e 1.1.2v.2w.3e 1.1.38.2w.3e 1.1.qk.30 1.1.31.30",
    "1.1.2s.30 1.1.2z.30 1.1.2u.31 1.1.32.31 1.1.qk.31 1.1.31.31 1.1.2r.31 1.1.2z.31",
    "1.1.31.31.1e 1.1.2r.31.1e 1.1.31.1e 1.1.2z.31.1e 1.1.31.31.1f 1.1.2r.31.1f 1.1.31.1f",
    "1.1.2z.31.1f 1.1.31.6qd.37 1.1.31.6qd.37.1e 1.1.34.2p 1.1.2z.34.2p 1.1.31.34.2p",
    "1.1.2v.34.2p 1.1.36.2p.2s 1.1.36.2p.2s.6qd.37 1.1.36.2p.2s.6qd.37.1e 1.1.34.37 1.1.32.37",
    "1.1.qk.37 1.1.31.37 1.1.34.3a 1.1.32.3a 1.1.qk.3a 1.1.31.3a 1.1.2z.3a 1.1.31.3a 1.1.34.3b",
    "1.1.32.3b 1.1.qk.3b 1.1.31.3b 1.1.2z.3b 1.1.31.3b 1.1.2z.qx 1.1.31.qx 2.1.2q.35 1.1.2r.2r",
    "1.1.2r.2s 1.1.2r.6qd.2z.2v 2.1.2s.2q 1.1.2v.3d 1.1.2w.2p 1.1.2w.34 1.1.2x.32 1.1.2z.2z",
    "1.1.2z.31 1.1.2z.38 1.1.30.31 1.1.30.32 1.1.30.33.2v 1.1.30.3c 1.1.31.2q 1.1.31.2x.30",
    "1.1.31.33.30 1.1.34.2w 2.1.34.34.31 1.1.34.36 1.1.37.36 1.1.37.3a 1.1.3b.2q 1.1.3a.6qd.31",
    "1.1.2p.6qd.31 1.1.1d.k4l 1.1.1e.k4l 1.1.1f.k4l 1.1.1g.k4l 1.1.1h.k4l 1.1.1i.k4l 1.1.1j.k4l",
    "1.1.1k.k4l 1.1.1l.k4l 1.1.1d.1c.k4l 1.1.1d.1d.k4l 1.1.1d.1e.k4l 1.1.1d.1f.k4l",
    "1.1.1d.1g.k4l 1.1.1d.1h.k4l 1.1.1d.1i.k4l 1.1.1d.1j.k4l 1.1.1d.1k.k4l 1.1.1d.1l.k4l",
    "1.1.1e.1c.k4l 1.1.1e.1d.k4l 1.1.1e.1e.k4l 1.1.1e.1f.k4l 1.1.1e.1g.k4l 1.1.1e.1h.k4l",
    "1.1.1e.1i.k4l 1.1.1e.1j.k4l 1.1.1e.1k.k4l 1.1.1e.1l.k4l 1.1.1f.1c.k4l 1.1.1f.1d.k4l",
    "1.1.2v.2p.30 mwi.1.37 1.1.2r 1.1.2u 1.1.35 gek.1.2u.2u 1.1.2u.2x 1.1.2u.30 1.1.2u.2u.2x",
    "1.1.2u.2u.30 1.1.37.38 1.1.37.38 z.1.17 8l.1.w.18s.18x 1.1.w.18t.18x 1.1.w.18u.18x",
    "1.1.w.18v.18x 1.1.w.18w.18x 1.1.w.18x.19s",
    "bb.1.185.18k.18p.w.17r.18k.18k.18n.w.189.18k.18q.18n.w.18o.183.18k.18l",
    "1.1.17w.18k.w.17w.18k.17r.18k.18n l.1.18 3.2.1m 2.1.x 1.1.1r t.1.2n 1.1.2n 1.2.14 2.1.3f",
    "1.1.3h f.1.2j 1.1.2l 1.1.w.lh 1.1.w.lh 1.1.w.lh 1.1.w.lh 1.1.2n 1.1.2n 1.1.2n 1.1.18",
    "4.1.1n 1.1.1m 1.1.1r 1.1.x 2.2.14 2.1.3f 1.1.3h 3.1.z 1.1.12 1.2.16 2.1.19 1.1.1o 1.1.1q",
    "1.1.1p 2.1.2k 1.2.10 2.1.1s 5.1.w.18r 2.1.w.18s 2.1.w.18t 2.1.w.18u 2.1.w.18v 2.1.w.18w",
    "2.1.w.18x 2.1.w.18y 3n.w.x w.q.2p q.10.2j 12.1.1a 3m.1.w.lg 1j6.1.35 12y9.q.2p q.a.1c",
    "1e8.q.2p q.q.2p q.q.2p q.7.2p 8.i.2x i.q.2p q.q.2p q.1.2p 2.2.2r 4.1.2v 3.2.2y 4.4.32",
    "5.8.37 8.4.2p 5.1.2u 2.7.2w 8.b.34 b.q.2p q.q.2p q.2.2p 3.4.2s 6.8.2y 9.7.37 8.q.2p q.2.2p",
    "3.4.2s 5.5.2x 6.1.33 4.7.37 8.q.2p q.q.2p q.q.2p q.q.2p q.q.2p q.q.2p q.q.2p q.q.2p q.q.2p",
    "q.q.2p q.q.2p q.q.2p q.q.2p 90.a.1c a.a.1c a.a.1c a.a.1c a.a.1c 4y3.1.1c.18 1.1.1d.18",
    "1.1.1e.18 1.1.1f.18 1.1.1g.18 1.1.1h.18 1.1.1i.18 1.1.1j.18 1.1.1k.18 1.1.1l.18",
    "6.1.14.2p.15 1.1.14.2q.15 1.1.14.2r.15 1.1.14.2s.15 1.1.14.2t.15 1.1.14.2u.15 1.1.14.2v.15",
    "1.1.14.2w.15 1.1.14.2x.15 1.1.14.2y.15 1.1.14.2z.15 1.1.14.30.15 1.1.14.31.15 1.1.14.32.15",
    "1.1.14.33.15 1.1.14.34.15 1.1.14.35.15 1.1.14.36.15 1.1.14.37.15 1.1.14.38.15 1.1.14.39.15",
    "1.1.14.3a.15 1.1.14.3b.15 1.1.14.3c.15 1.1.14.3d.15 1.1.14.3e.15 1.1.9hw.37.9hx 1.1.2r",
    "1.1.36 1.1.2r.2s 1.1.3b.3e 2.q.2p q.1.2w.3a 1.1.31.3a 1.1.37.2s 1.1.37.37 1.1.34.34.3a",
    "1.1.3b.2r r.1.31.2r 1.1.31.2s 1.1.31.36 10.1.2s.2y 21s.a.1c"]

/-- The directions of writing. An entry is a distance and the direction from there on: left to right
(L), right to left (R), Arabic digits (N), European digits (E), neutral (O), as the character before
(M), or none that a name may have (X). -/
def directions : List String :=
  ["4gO aL 1O 7E 2O 1L 1O 3E 1L 1O 5L nO 1L vO 1L chO 2L 7O eL 2O eL 5O 9L 1O hM 1xL 1M 16L",
    "4O 2L 8O 1L 5O 2L 1O 1L 32O 1L 3wM 7L 74O 7M 19R 1M 1R 1M 2R 1M 2R 1M 9R 1iO 2R 1O 2R 1O",
    "1R 1O 2M bR 2X 1R 19M lN aO 1N 2R 3M 1R 2tM 8O 1M 6R 2M 2O 1M 4R 2E aR nM 1R uM tR 2hM",
    "bR 1mM 9R 2O 4R 3M 1R oM 4R 1M 9R 1M 3R 1M 7R 15M 5R iX 1cR lX 1R iX bM 1cL 1jM 1L 1M 1L",
    "4M 8L 4M 1L 3M 7L aM 2L tM 1L 1mM 1L 4M 6L 6M 1L kM 4L cO 2L 7O 1L 2M 5L 1lM 2L 3M oL nM",
    "2L 3M 1L bM 2L 1lM 1L 4M 8L 4M 3L iM 4L bO 8L 1M 8L 1mM 1L 2M 1L 1M 6L 6M aL bM 4L sM 1L",
    "1pM 1L cM 3L zO dM 1L 3M 1L 1jX 1L 1M 3L 5M iL 5X 3L 2M 4L iO 7L 2M 1L 1mM 1L fM 9L 8X",
    "1L 4M 4L dX dM 2L 1lM 2L 4M 5L 7M 1L kM 4L rM 1L 20M 5L 3M 6L 2hM 1L 2M bO 1L 7M 8L 2qM",
    "1L 2M 9L bM 6X 2L 20M 2L rM 1L 1M 1L 1M 1O 4L 1fM eL 1M 5L 1M 2L 5M 1dL 8M 1L 2uM 4L 1M",
    "6L 1M 2L 2M 2L pM 2L 4M 3L gM 4L dM 1L 2M 2L 6M 1L fM 1L jjM 3L 1cO gL 2oO 1L iiO 5L 31X",
    "1L 4M 3X bL iM 3L tM eL iM eL 1jM 7L 8M 1L 2M bL 7O 1L 1M 3L gO wL 39M 2L yM 1L 3aM 3L",
    "4M 2L 9M 1L 6M 7O 6L 48O yL nM 2L 2M 3L 1kM 1L 1M 9L 1M 1L 2M 8L 6M dL 1cM hX 1rM 4L 1cM",
    "1L 1M 5L 1M 1L 5M 1L 9X 4L rM 9L 9X 3M 2L wM 4L 2M 2L 1M 3L 1kM 1L 1M 2L 3M 1L 1M 3L 1mM",
    "8L 2M 5L 45M 3L 1M dL 1M 7L 4M 1L 6M 1L 3M 2L 5iM 1mX 1M 5L cdO 1L 1O 3L bO 3L dO 3L dO",
    "5L bO 3X gO 27X hE 1L 3E 6O 5L 1E aO 6L gO wX gM 1cO 2L 1O 4L 1O 2L aO 1L 1O 3L 5O 6L 1O",
    "1L 1O 1L 1O 1L 4O 1L 6R 4L 1O 2L 4O 5L 5O 4L 2O gL 15O bxL 1xO qL 1O 7aL 26O ciL 1O 9fL",
    "74O lcL 1bX 1L 1bX 1L 3pO 6L 4M 3L 7O 7L 3jM 1L 2oM wO 2bX 19O vL 1O 2bL 7hX 1O 4L 3O pL",
    "9M 4L 2O 1L 5O 2L 5O 4L 2gM 2O 2L 3O 1L 2iO 1L 5gO 1cL 19O 3L 1cO gL 29O fL cO 4L 4nO 4L",
    "2rO 2L vO 1L 534O 1sL g71X 3L wgO 1sL 8tO 3L 2nM 4O 1M aO 2L uM 2L 28M 2L eO yL 2uO 1L",
    "1jX 2L eX yL gM 1L 3M 1L 4M 1L pM 2L 1O 4M 4L 8O 8L 1gO cL 1wM aL iM iL dM 1L 12M 8L pM",
    "bL 1aM 3L 1cM 1L 2M 4L 2M 2L 13M 1L 1vM 6L 2M 2L 2M bL 3M 1L 8M 1L 1bM 1L 1fM 1L 1M 3L",
    "2M 2L 5M 2L 1M 1L 16M 2L 8M bL 2xO 6L 39M 1L 2M 1L 4M 3L fn1R 1M 1R aO 1R 48X hR a3O 2X",
    "gR 3jX xR dO 1X 2O wM hO 1rR 41O fE aO 7L qO 6L qO bL 1kM 3L 1rO wL 75O 1L 1qO 25L 3O",
    "1sL 19M 3nL 2oM 1E vL 3aM aL dsX 40L aoX 1L rX 1L 2X 1L 1X 1L 5X 1L hX 1zR 7zO 1R 69M fR",
    "14M 8R 4lM 6R 26O 7R dgM cN 9cR 17M 2R 28X 3R 1yM bR vX 1sR 28L 1M 1L 1iM fL bO kL aX fM",
    "3L 1dM 4L 2M 2L 7X eL 1cM 3L 10M 5L 1M 9L 1pM 1L cM 2L 1gM 9L aM 4L 2M 1L 2nM 3L 2M 1L",
    "1M 2L 6M 1X 1tL 2nM 1L 3M dL gM 2L 1lM 2L 3M 1L 11M 4aL 1kM 8L 2M 3L 1M 1L nM 1L 2cM 6L",
    "1M 1L 4M 2L 1M 2L 6mM 6L 4M 2L 1M 2L rM 10L 1fM 8L 2M 1L 1M 2L vO wL 17M 1L 1M 1L 2M 6L",
    "1M 1L 1X 7L 2lM 3L 2M 4L 1M 9L gX 5cL 1bM 9L 1M 2L 74M 2L 1M 1L 4M 1L 40M 8L 4M 1L wM 6L",
    "2M 2L 14M 6L 2M 4L 8M 9L 1M 6L 2M 3L 1aM dL 1M 2L mX gL 1sX 74L 1cM eL 2cM nL 1M 7L 1M",
    "2L 1M 23L 1dM lL 1M 9L 1sM 3L 2M 1L 1M 1L 9nM 2L bX 4wL 11O 16L 32pX 34L trX 34hL 7lcX",
    "2oL wM 5L 1nM 7L t4M 1L 1rM 4L 27O 1L 1M cL cn4X gL 7zX 1dL 5X fL 27tM 2L 3mpX 74L 9zM",
    "3L hM 8L 2M 7L uM 4L 1nX nO 1uM 3O 3fX wL wO 2oL o1O 1L pO 1L vO 1L pO 1L vO 1L pO 1L vO",
    "1L pO 1L vO 1L pO 1L aE 1eL e8M 1jL 4M 1eL 8M 1L eM 1L mM v9X 74M 1cL 2nX 35L 1cM 7L 9lX",
    "1cL 18M 4L fO cxX moR 5sM 1cR 1wM 7R 145O epE aO 5L vO 1L 1mO 6L 1pO 1lL 3eO vwX 4O 44X",
    "cO 2hX 7O gX gO ahX 1O 2aX 1O 4oX 3O 3X 5O 7X 9O pX 7O 7X 9O 3X dO 7X 15O 6oE swL wymX",
    "yL 379X bL i6oX fcmoL"]

/-- Where marks go at their letters: an entry is a distance from the one before, how many marks in a
row it is for, and a number that is greater the later they come. -/
def places : List String :=
  ["lc.l.6e l.1.6g 1.4.64 4.1.6g 1.1.60 1.5.64 5.2.5m 2.4.64 4.2.5m 2.b.64 b.5.1 5.4.64",
    "4.3.6e 5.1.6e 4.1.6e 1.3.64 3.3.6e 3.2.64 3.3.6e 3.4.64 4.1.6e 1.1.6g 1.2.64 2.1.6e",
    "1.1.6h 1.2.6i 2.1.6h 1.2.6i 2.1.6h 1.d.6e 80.5.6e 7i.1.64 1.4.6e 4.1.64 1.3.6e 3.1.66",
    "1.1.64 1.6.6e 6.6.64 6.2.6e 2.1.64 1.2.6e 2.1.66 1.1.6c 1.1.6e 1.1.a 1.1.b 1.1.c 1.1.d",
    "1.1.e 1.1.f 1.1.g 1.1.h 1.1.i 1.2.j 2.1.k 1.1.l 1.1.m 2.1.n 2.1.o 1.1.p 2.1.6e 1.1.64",
    "2.1.i 21.8.6e 8.1.u 1.1.v 1.1.w 1d.1.r 1.1.s 1.1.t 1.1.u 1.1.v 1.1.w 1.1.x 1.1.y 1.2.6e",
    "2.2.64 2.5.6e 5.1.64 1.2.6e 2.1.64 h.1.z 2u.7.6e 9.4.6e 4.1.64 1.1.6e 3.2.6e 3.1.64",
    "1.2.6e 2.1.64 10.1.10 v.1.6e 1.1.64 1.2.6e 2.1.64 1.2.6e 2.3.64 3.1.6e 1.2.64 2.1.6e",
    "1.1.64 1.3.6e 3.1.64 1.1.6e 1.1.64 1.1.6e 1.1.64 1.1.6e 1.1.64 1.2.6e 4i.7.6e 7.1.64",
    "1.1.6e a.1.64 p.4.6e 5.9.6e a.3.6e 4.5.6e 1c.3.64 1r.1.6e 1.3.64 3.4.6e 1a.5.6e 5.5.64",
    "5.e.6e f.1.64 1.2.6e 2.1.64 1.2.6e 2.1.64 1.3.6e 3.3.64 3.1.r 1.1.s 1.1.t 1.3.6e 3.1.64",
    "1.2.6e 2.2.64 2.5.6e 1t.1.7 h.1.9 4.1.6e 1.1.64 1.2.6e 2x.1.7 h.1.9 1d.1.6e 1q.1.7 h.1.9",
    "33.1.7 h.1.9 33.1.7 h.1.9 3k.1.9 33.1.7 h.1.9 8.1.2c 1.1.2j 2u.1.7 h.1.9 32.2.9 i.1.9",
    "3h.1.9 32.2.2v 2.1.9 e.4.2z 34.2.3a 2.1.9 e.4.3e 28.2.64 t.1.64 2.1.64 2.1.60 1k.1.3l",
    "1.1.3m 2.1.3o 6.4.3m 6.1.3m 2.2.6e 2.1.9 2.2.6e 1s.1.64 35.1.7 2.2.9 2c.1.64 k0.3.6e",
    "qf.2.9 w.1.9 4e.1.9 b.1.6e 5o.1.6c 40.1.66 1.1.6e 1.1.64 64.1.6e 1.1.64 20.1.9 l.8.6e",
    "a.1.64 1d.5.6e 5.6.64 6.2.6e 2.1.64 2.2.64 2.2.6e 2.2.64 2.5.6e 5.1.64 1.4.6e 2x.1.7",
    "g.1.9 13.1.6e 1.1.64 1.7.6e 1p.2.9 1o.1.7 c.2.9 1x.1.7 49.3.6e 4.1.1 1.5.64 5.2.6e",
    "2.4.64 4.1.6e 2.7.1 b.1.64 7.1.6e 4.2.6e 5k.2.6e 2.1.64 1.7.6e 7.1.64 1.2.6e 2.1.6i",
    "1.1.5y 1.1.64 1.1.5m 1.11.6e 11.1.6g 1.2.6c 2.1.64 1.1.62 1.1.6e 1.1.6h 1.1.64 1.1.6e",
    "1.1.64 k1.2.6e 2.2.1 2.4.6e 4.3.1 3.2.6e 6.1.6e 4.2.1 2.1.6e 1.1.64 1.1.6e 1.2.1 2.4.64",
    "4.1.6e 2db.3.6e 40.1.9 2p.w.6e ga.1.62 1.1.6c 1.1.6g 1.1.66 1.2.68 2z.2.8 n9y.1.6e",
    "5.a.6e 16.2.6e 2a.2.6e 7q.1.9 12.1.9 48.1.9 s.i.6e 23.3.64 14.1.9 2o.1.7 d.1.9 6o.1.6e",
    "2.2.6e 2.1.64 3.2.6e 7.2.6e 3.1.6e 1h.1.9 6v.1.9 fn5.1.q le.7.6e 7.7.64 7.2.6e r3.1.64",
    "6b.1.64 46.5.6e 1av.1.64 2.1.6e 15.1.6e 1.1.1 1.1.64 5.1.9 4m.1.6e 1.1.64 fy.4.6e",
    "av.2.6e 2a.3.64 21.2.64 2.3.6e 3.1.64 1.1.6e 1.4.64 1h.1.6e 1.1.64 1.1.6e 1.1.64 5d.1.9",
    "16.1.9 f.1.9 1m.1.9 1.1.7 1y.3.6e 1f.2.9 1s.1.7 25.1.9 a.1.7 2z.1.9 1.1.7 4z.1.7 1.1.9",
    "29.2.7 i.1.9 p.7.6e a.5.6e 5u.1.9 4.1.7 o.1.6e 2s.1.9 1.1.7 70.1.9 1.1.7 3j.1.9 3b.1.9",
    "1.1.7 38.1.9 7i.1.9 1.1.7 77.2.9 6.1.7 4d.1.9 2c.1.9 j.1.9 2a.1.9 bq.1.9 77.1.7 2.2.9",
    "2b.1.9 bu.2.9 ey7.5.1 1s.7.6e xs.2.6 f5a.1.1 43r.2.60 2.3.1 6.1.6a 1.5.60 d.8.64 a.5.6e",
    "5.2.64 w.4.6e 48.3.6e 2pq.7.6e 8.h.6e j.7.6e 8.2.6e 3.5.6e 2x.1.6e 4h.7.6e am.1.6e",
    "1q.4.6e e8.2.6g 2.1.64 1.1.6e rl.7.64 38.6.6e 6.1.7"]

/-- The characters that are composed of a letter and marks: an entry is a distance from the one
before, one, and what the character is composed of. -/
def composites : List String :=
  ["68.1.2p.lc 1.1.2p.ld 1.1.2p.le 1.1.2p.lf 1.1.2p.lk 1.1.2p.lm 2.1.2r.mf 1.1.2t.lc",
    "1.1.2t.ld 1.1.2t.le 1.1.2t.lk 1.1.2x.lc 1.1.2x.ld 1.1.2x.le 1.1.2x.lk 2.1.32.lf",
    "1.1.33.lc 1.1.33.ld 1.1.33.le 1.1.33.lf 1.1.33.lk 3.1.39.lc 1.1.39.ld 1.1.39.le",
    "1.1.39.lk 1.1.3d.ld 2.1.3d.lk 2.1.2p.lg 2.1.2p.li 2.1.2p.mg 2.1.2r.ld 2.1.2r.le",
    "2.1.2r.lj 2.1.2r.lo 2.1.2s.lo 4.1.2t.lg 2.1.2t.li 2.1.2t.lj 2.1.2t.mg 2.1.2t.lo",
    "2.1.2v.le 2.1.2v.li 2.1.2v.lj 2.1.2v.mf 2.1.2w.le 4.1.2x.lf 2.1.2x.lg 2.1.2x.li",
    "2.1.2x.mg 6.1.2y.le 2.1.2z.mf 3.1.30.ld 2.1.30.mf 2.1.30.lo 6.1.32.ld 2.1.32.mf",
    "2.1.32.lo 5.1.33.lg 2.1.33.li 2.1.33.ln 4.1.36.ld 2.1.36.mf 2.1.36.lo 2.1.37.ld",
    "2.1.37.le 2.1.37.mf 2.1.37.lo 2.1.38.mf 2.1.38.lo 4.1.39.lf 2.1.39.lg 2.1.39.li",
    "2.1.39.lm 2.1.39.ln 2.1.39.mg 2.1.3b.le 2.1.3d.le 3.1.3e.ld 2.1.3e.lj 2.1.3e.lo",
    "z.1.33.m3 f.1.39.m3 u.1.2p.lo 2.1.2x.lo 2.1.33.lo 2.1.39.lo 2.1.39.lk.lg 2.1.39.lk.ld",
    "2.1.39.lk.lo 2.1.39.lk.lc 3.1.2p.lk.lg 2.1.2p.lj.lg 2.1.6e.lg 4.1.2v.lo 2.1.2z.lo",
    "2.1.33.mg 2.1.33.mg.lg 2.1.ia.lo 1.1.2y.lo 5.1.2v.ld 4.1.32.lc 2.1.2p.lm.ld 2.1.6e.ld",
    "2.1.6w.ld 2.1.2p.lr 2.1.2p.lt 2.1.2t.lr 2.1.2t.lt 2.1.2x.lr 2.1.2x.lt 2.1.33.lr",
    "2.1.33.lt 2.1.36.lr 2.1.36.lt 2.1.39.lr 2.1.39.lt 2.1.37.me 2.1.38.me 4.1.2w.lo",
    "8.1.2p.lj 2.1.2t.mf 2.1.33.lk.lg 2.1.33.lf.lg 2.1.33.lj 2.1.33.lj.lg 2.1.3d.lg",
    "9p.1.qh.lk.ld s.1.q9.ld 1.1.qd.ld 1.1.qf.ld 1.1.qh.ld 1.1.qt.lk.ld q.1.qh.lk 1.1.qt.lk",
    "1.1.qn.ld 1.1.qt.ld 1.1.qx.ld 2z.1.u0.li n.1.tx.lc 1.1.tx.lk 2.1.tv.ld 4.1.uu.lk",
    "5.1.u2.ld 1.1.u0.lc 1.1.ub.li p.1.vp.lr 23.1.ty.li f.1.ts.li 2.1.ts.lk 4.1.tx.li",
    "4.1.yh.lk 2.1.ty.lk 2.1.tz.lk 4.1.u0.lg 2.1.u0.lk 2.1.u6.lk 4.1.yx.lk 2.1.ul.lk",
    "2.1.ub.lg 2.1.ub.lk 2.1.ub.ln 2.1.uf.lk 4.1.uj.lk 89.1.17r.18z 1.1.17r.190 1.1.18o.190",
    "1.1.17r.191 1.1.18q.190 4a.1.1cl.190 2.1.1c1.190 h.1.1ci.190 gm.1.1t4.1to 8.1.1tc.1to",
    "3.1.1tf.1to 47.1.1xj.1xa 1.1.1xj.1xz ak.1.287.28m 3.1.287.27y 1.1.287.28n 20.1.2aa.2c7",
    "1i.1.2bq.2bi 1.1.2br.2bi 1.1.2bq.2c7 3g.1.2fa.2fq 3c.1.2in.2j9 7.1.2iu.2j9 1.1.2iu.2ja",
    "2.1.2iu.2iq 1.1.2iu.2iq.2j9 3j.1.2me.2m6 1.1.2mf.2m6 1.1.2me.2mv 3y.1.2qh.2q2",
    "2.1.2qh.2q7 1.1.2qh.2q7.2q2 1.1.2qh.2qn g8.1.36t.372 25c.1.5c5.5dh 2.1.5c7.5dh",
    "2.1.5c9.5dh 2.1.5cb.5dh 2.1.5cd.5dh 4.1.5ch.5dh 15.1.5dm.5dh 2.1.5do.5dh 3.1.5dq.5dh",
    "1.1.5dr.5dh 2.1.5du.5dh ji.1.2p.md 2.1.2q.lj 2.1.2q.mb 2.1.2q.mp 2.1.2r.mf.ld 2.1.2s.lj",
    "2.1.2s.mb 2.1.2s.mp 2.1.2s.mf 2.1.2s.ml 2.1.2t.lg.lc 2.1.2t.lg.ld 2.1.2t.ml 2.1.2t.mo",
    "2.1.2t.mf.li 2.1.2u.lj 2.1.2v.lg 2.1.2w.lj 2.1.2w.mb 2.1.2w.lk 2.1.2w.mf 2.1.2w.mm",
    "2.1.2x.mo 2.1.2x.lk.ld 2.1.2z.ld 2.1.2z.mb 2.1.2z.mp 2.1.30.mb 2.1.30.mb.lg 2.1.30.mp",
    "2.1.30.ml 2.1.31.ld 2.1.31.lj 2.1.31.mb 2.1.32.lj 2.1.32.mb 2.1.32.mp 2.1.32.ml",
    "2.1.33.lf.ld 2.1.33.lf.lk 2.1.33.lg.lc 2.1.33.lg.ld 2.1.34.ld 2.1.34.lj 2.1.36.lj",
    "2.1.36.mb 2.1.36.mb.lg 2.1.36.mp 2.1.37.lj 2.1.37.mb 2.1.37.ld.lj 2.1.37.lo.lj",
    "2.1.37.mb.lj 2.1.38.lj 2.1.38.mb 2.1.38.mp 2.1.38.ml 2.1.39.mc 2.1.39.mo 2.1.39.ml",
    "2.1.39.lf.ld 2.1.39.lg.lk 2.1.3a.lf 2.1.3a.mb 2.1.3b.lc 2.1.3b.ld 2.1.3b.lk 2.1.3b.lj",
    "2.1.3b.mb 2.1.3c.lj 2.1.3c.lk 2.1.3d.lj 2.1.3e.le 2.1.3e.mb 2.1.3e.mp 1.1.2w.mp",
    "1.1.38.lk 1.1.3b.lm 1.1.3d.lm 8.1.2p.mb 2.1.2p.ll 2.1.2p.le.ld 2.1.2p.le.lc 2.1.2p.le.ll",
    "2.1.2p.le.lf 2.1.2p.mb.le 2.1.2p.li.ld 2.1.2p.li.lc 2.1.2p.li.ll 2.1.2p.li.lf",
    "2.1.2p.mb.li 2.1.2t.mb 2.1.2t.ll 2.1.2t.lf 2.1.2t.le.ld 2.1.2t.le.lc 2.1.2t.le.ll",
    "2.1.2t.le.lf 2.1.2t.mb.le 2.1.2x.ll 2.1.2x.mb 2.1.33.mb 2.1.33.ll 2.1.33.le.ld",
    "2.1.33.le.lc 2.1.33.le.ll 2.1.33.le.lf 2.1.33.mb.le 2.1.33.m3.ld 2.1.33.m3.lc",
    "2.1.33.m3.ll 2.1.33.m3.lf 2.1.33.m3.mb 2.1.39.mb 2.1.39.ll 2.1.39.m3.ld 2.1.39.m3.lc",
    "2.1.39.m3.ll 2.1.39.m3.lf 2.1.39.m3.mb 2.1.3d.lc 2.1.3d.mb 2.1.3d.ll 2.1.3d.lf 7.1.q9.lv",
    "1.1.q9.lw 1.1.q9.lv.lc 1.1.q9.lw.lc 1.1.q9.lv.ld 1.1.q9.lw.ld 1.1.q9.lv.n6 1.1.q9.lw.n6",
    "9.1.qd.lv 1.1.qd.lw 1.1.qd.lv.lc 1.1.qd.lw.lc 1.1.qd.lv.ld 1.1.qd.lw.ld b.1.qf.lv",
    "1.1.qf.lw 1.1.qf.lv.lc 1.1.qf.lw.lc 1.1.qf.lv.ld 1.1.qf.lw.ld 1.1.qf.lv.n6 1.1.qf.lw.n6",
    "9.1.qh.lv 1.1.qh.lw 1.1.qh.lv.lc 1.1.qh.lw.lc 1.1.qh.lv.ld 1.1.qh.lw.ld 1.1.qh.lv.n6",
    "1.1.qh.lw.n6 9.1.qn.lv 1.1.qn.lw 1.1.qn.lv.lc 1.1.qn.lw.lc 1.1.qn.lv.ld 1.1.qn.lw.ld",
    "b.1.qt.lv 1.1.qt.lw 1.1.qt.lv.lc 1.1.qt.lw.lc 1.1.qt.lv.ld 1.1.qt.lw.ld 1.1.qt.lv.n6",
    "1.1.qt.lw.n6 9.1.qx.lv 1.1.qx.lw 1.1.qx.lv.lc 1.1.qx.lw.lc 1.1.qx.lv.ld 1.1.qx.lw.ld",
    "1.1.qx.lv.n6 1.1.qx.lw.n6 9.1.q9.lc 2.1.qd.lc 2.1.qf.lc 2.1.qh.lc 2.1.qn.lc 2.1.qt.lc",
    "2.1.qx.lc 1g.1.q9.li 1.1.q9.lg 5.1.q9.n6 g.1.qf.n6 a.1.qh.li 1.1.qh.lg 1.1.qh.lk.lc",
    "4.1.qh.n6 1.1.qh.lk.n6 9.1.qt.li 1.1.qt.lg 1.1.qt.lk.lc 2.1.qp.lv 1.1.qp.lw 1.1.qt.n6",
    "1.1.qt.lk.n6 f.1.qx.n6 bo.1.6mo.mw 1.1.6mq.mw j.1.6ms.mw v.1.6og.mw 1.1.6ok.mw",
    "1.1.6oi.mw 1h.1.6pv.mw 5.1.6q0.mw 3.1.6q3.mw o.1.6qr.mw 2.1.6qt.mw r.1.6rg.mw 3.1.6rn.mw",
    "3.1.6rp.mw 2.1.6rs.mw n.1.1p.mw 2.1.6sh.mw b.1.6rx.mw 1.1.1o.mw 1.1.1q.mw 1.1.6sk.mw",
    "1.1.6sl.mw 3.1.6sy.mw 1.1.6sz.mw 3.1.6t2.mw 1.1.6t3.mw 7.1.6t6.mw 1.1.6t7.mw 3.1.6te.mw",
    "1.1.6tf.mw 3.1.6ti.mw 1.1.6tj.mw z.1.6ua.mw 1.1.6ug.mw 1.1.6uh.mw 1.1.6uj.mw 1d.1.6t8.mw",
    "1.1.6t9.mw 1.1.6tt.mw 1.1.6tu.mw 7.1.6uq.mw 1.1.6ur.mw 1.1.6us.mw 1.1.6ut.mw",
    "2n3.1.9jf.9ll 2.1.9jh.9ll 2.1.9jj.9ll 2.1.9jl.9ll 2.1.9jn.9ll 2.1.9jp.9ll 2.1.9jr.9ll",
    "2.1.9jt.9ll 2.1.9jv.9ll 2.1.9jx.9ll 2.1.9jz.9ll 2.1.9k1.9ll 3.1.9k4.9ll 2.1.9k6.9ll",
    "2.1.9k8.9ll 7.1.9kf.9ll 1.1.9kf.9lm 2.1.9ki.9ll 1.1.9ki.9lm 2.1.9kl.9ll 1.1.9kl.9lm",
    "2.1.9ko.9ll 1.1.9ko.9lm 2.1.9kr.9ll 1.1.9kr.9lm n.1.9ja.9ll a.1.9lp.9ll e.1.9m3.9ll",
    "2.1.9m5.9ll 2.1.9m7.9ll 2.1.9m9.9ll 2.1.9mb.9ll 2.1.9md.9ll 2.1.9mf.9ll 2.1.9mh.9ll",
    "2.1.9mj.9ll 2.1.9ml.9ll 2.1.9mn.9ll 2.1.9mp.9ll 3.1.9ms.9ll 2.1.9mu.9ll 2.1.9mw.9ll",
    "7.1.9n3.9ll 1.1.9n3.9lm 2.1.9n6.9ll 1.1.9n6.9lm 2.1.9n9.9ll 1.1.9n9.9lm 2.1.9nc.9ll",
    "1.1.9nc.9lm 2.1.9nf.9ll 1.1.9nf.9lm n.1.9ly.9ll 3.1.9nz.9ll 1.1.9o0.9ll 1.1.9o1.9ll",
    "1.1.9o2.9ll 4.1.9od.9ll 1864.1.1huh.1hve 2.1.1huj.1hve f.1.1hut.1hve 3n.1.1hyp.1hyf",
    "1.1.1hyq.1hyf f0.1.1idj.1ida 1.1.1idj.1idz a7.1.1int.1inu 1.1.1int.1ink 2.1.1int.1inx",
    "70.1.1iuw.1iun 1.1.1iux.1iun ot.1.1jjp.1jjk"]

end Retrieval.Host.Table
