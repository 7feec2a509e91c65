import Retrieval.Number.Reading

/-!
# The vocabulary of the byte pair encoding

Each entry is a rank and the bytes that it stands for, in hexadecimal. A lower rank is merged first,
and the rank is the token.
-/

namespace Retrieval.Vocabulary

/-- Ranks and the bytes that they stand for. -/
def table : String :=
  "6:27 7:28 8:29 11:2c 12:2d 13:2e 16:31 17:32 18:33 19:34 20:35 27:3c 29:3e 32:41 33:42 " ++
  "34:43 54:57 64:61 65:62 66:63 67:64 68:65 69:66 70:67 71:68 72:69 75:6c 76:6d 77:6e " ++
  "78:6f 79:70 81:72 82:73 83:74 86:77 87:78 89:7a 91:7c 95:a2 102:a9 120:bc 127:c3 161:e5 " ++
  "162:e6 172:f0 197:09 198:0a 201:0d 220:20 231:89 236:8e 245:97 253:9f 255:ad 256:2020 " ++
  "261:6572 263:6f6e 264:2061 265:7265 268:656e 269:6f72 271:0a0a 272:2063 278:616c " ++
  "289:2077 293:2062 294:2064 295:6574 298:0909 301:656c 303:6e64 309:616d 313:2d2d " ++
  "319:0d0a 320:2028 321:696c 327:6578 340:290a 342:2067 345:2c0a 356:2043 362:2041 " ++
  "366:203c 382:2e0a0a 384:2065 385:6c6f 387:206265 397:3e0a 408:656e64 409:206465 426:2042 " ++
  "428:657874 451:6465 453:20616c 461:6f7265 466:746572 468:2057 482:202d 541:6f7264 " ++
  "627:2e0a 656:20646f 668:7465 696:290a0a 717:3132 728:6674 752:6570 764:7068 830:6566 " ++
  "831:666f 936:6361 956:2774 978:c3a9 1064:66746572 1073:6f66 1146:776f 1167:207a " ++
  "1178:776f7264 1198:202d2d 1240:290d0a 1297:20626574 1306:206166746572 1342:74657874 " ++
  "1348:666f7265 1363:3e0a0a 1395:6265 1419:3233 1432:0a0a0a 1459:3e0d0a 1470:0963 " ++
  "1541:20646f6e 1603:206265666f7265 1624:2064656c 1725:7073 1764:6d61 1774:3435 " ++
  "1909:2c0d0a 1955:657461 1958:3334 2000:666f72 2120:2878 2211:206361 2282:0962 2302:7874 " ++
  "2629:7461 2642:6166 2765:0964 3055:646f 3253:0967 3304:2e0d0a 3492:20776f7264 " ++
  "3638:2c0a0a 3903:656c74 3906:6d6d 3971:3531 4055:706861 4191:20776f72 4248:206570 " ++
  "4317:6861 4513:313233 4746:65666f7265 4937:6c74 6092:656c7461 6391:0943 6455:7369 " ++
  "6634:7264 6704:20e6 6831:0977 6885:6761 7058:2d0a 7233:2d2d0a 7270:657073 " ++
  "7288:616c706861 7435:292d 7883:0965 8136:206166 8172:2d28 8358:353132 8451:20616c706861 " ++
  "8568:2c62 8836:616d6d 8862:656e646f 9192:2067616d 9468:f09f 9506:20576f7264 " ++
  "9665:2064656c7461 9783:64656c 10616:7a7a 10669:2d0a0a 10890:e5ad 10924:6166746572 " ++
  "11116:576f7264 11410:20f09f 11575:0961 11727:323334 12490:6c6f6e 12901:333435 13083:0942 " ++
  "13400:616d6d61 13746:2062657461 13819:206761 13855:6c70 14450:6f6674 15145:6265666f7265 " ++
  "15357:646f6e 16274:6d6d61 17346:696c6f6e 17749:0957 18470:20657073 18536:696c6f " ++
  "19113:e5ad97 19674:62657461 20360:343531 20530:09646f 20869:64656c7461 21499:097a " ++
  "22350:2067616d6d61 23845:0941 24670:20776f 27567:2d2d0a0a 28357:20576f 29651:626574 " ++
  "30203:20636166 30721:292d2d 31323:616c7068 31865:707369 32304:20657073696c6f6e " ++
  "32867:657073696c6f6e 33314:67616d6d61 33733:207a7a 34444:746578 35904:73696c " ++
  "36636:20576f72 40429:67616d 40614:202d2d0a 50810:776f72 53050:20636166c3a9 " ++
  "54851:2d2d0d0a 58046:20626566 58747:626566 59451:096465 59958:66c3a9 60681:202d2d0a0a " ++
  "60801:20616674 60992:7073696c6f6e 63862:576f 64334:096265666f7265 64419:667465 " ++
  "65695:20616c7068 67398:09776f7264 69896:636166 70227:2d0d0a 70609:0964656c 70671:09616c " ++
  "74163:09616c706861 74242:096265 78256:e6bc 83739:203c7c 86535:0964656c7461 " ++
  "86942:2067616d6d 90314:6e646f 97350:2064656c74 97726:096570 "

def bytesOf : List Char → List UInt8
  | hi :: lo :: rest =>
    (16 * (Number.digit? 16 hi).getD 0 + (Number.digit? 16 lo).getD 0).toUInt8 :: bytesOf rest
  | _ => []

def entry? (cs : List Char) : Option (Nat × List UInt8) :=
  (Number.natOfDigits? 10 (cs.takeWhile (· != ':'))).map
    (·, bytesOf ((cs.dropWhile (· != ':')).drop 1))

def parts (cs : List Char) : List (List Char) := cs.splitOn ' '

def entries : List (Nat × List UInt8) := (parts table.toList).filterMap entry?

def rank? (bytes : List UInt8) : Option Nat := (entries.find? (·.2 == bytes)).map (·.1)

def bytes (rank : Nat) : List UInt8 := ((entries.find? (·.1 == rank)).map (·.2)).getD []

end Retrieval.Vocabulary
