import TextTemplate.Unicode.Runs

/-!
# Simple case folding

Characters with the same fold differ in case only. The fold of a character is one character.
-/

namespace TextTemplate.Unicode.CaseFold

/-- First code point, count, stride and first image of the progressions that folding maps. -/
def folds : List String :=
  ["65:26:1:97 181:1:1:956 192:23:1:224 216:7:1:248 256:24:2:257 306:3:2:307 313:8:2:314",
   "330:23:2:331 376:1:1:255 377:3:2:378 383:1:1:115 385:1:1:595 386:2:2:387 390:1:1:596",
   "391:1:1:392 393:2:1:598 395:1:1:396 398:1:1:477 399:1:1:601 400:1:1:603 401:1:1:402",
   "403:1:1:608 404:1:1:611 406:1:1:617 407:1:1:616 408:1:1:409 412:1:1:623 413:1:1:626",
   "415:1:1:629 416:3:2:417 422:1:1:640 423:1:1:424 425:1:1:643 428:1:1:429 430:1:1:648",
   "431:1:1:432 433:2:1:650 435:2:2:436 439:1:1:658 440:1:1:441 444:1:1:445 452:1:1:454",
   "453:1:1:454 455:1:1:457 456:1:1:457 458:1:1:460 459:9:2:460 478:9:2:479 497:1:1:499",
   "498:2:2:499 502:1:1:405 503:1:1:447 504:20:2:505 544:1:1:414 546:9:2:547 570:1:1:11365",
   "571:1:1:572 573:1:1:410 574:1:1:11366 577:1:1:578 579:1:1:384 580:1:1:649 581:1:1:652",
   "582:5:2:583 837:1:1:953 880:2:2:881 886:1:1:887 895:1:1:1011 902:1:1:940 904:3:1:941",
   "908:1:1:972 910:2:1:973 913:17:1:945 931:9:1:963 962:1:1:963 975:1:1:983 976:1:1:946",
   "977:1:1:952 981:1:1:966 982:1:1:960 984:12:2:985 1008:1:1:954 1009:1:1:961 1012:1:1:952",
   "1013:1:1:949 1015:1:1:1016 1017:1:1:1010 1018:1:1:1019 1021:3:1:891 1024:16:1:1104",
   "1040:32:1:1072 1120:17:2:1121 1162:27:2:1163 1216:1:1:1231 1217:7:2:1218 1232:48:2:1233",
   "1329:38:1:1377 4256:38:1:11520 4295:1:1:11559 4301:1:1:11565 5112:6:1:5104 7296:1:1:1074",
   "7297:1:1:1076 7298:1:1:1086 7299:2:1:1089 7301:1:1:1090 7302:1:1:1098 7303:1:1:1123",
   "7304:1:1:42571 7312:43:1:4304 7357:3:1:4349 7680:75:2:7681 7835:1:1:7777 7838:1:1:223",
   "7840:48:2:7841 7944:8:1:7936 7960:6:1:7952 7976:8:1:7968 7992:8:1:7984 8008:6:1:8000",
   "8025:4:2:8017 8040:8:1:8032 8072:8:1:8064 8088:8:1:8080 8104:8:1:8096 8120:2:1:8112",
   "8122:2:1:8048 8124:1:1:8115 8126:1:1:953 8136:4:1:8050 8140:1:1:8131 8152:2:1:8144",
   "8154:2:1:8054 8168:2:1:8160 8170:2:1:8058 8172:1:1:8165 8184:2:1:8056 8186:2:1:8060",
   "8188:1:1:8179 8486:1:1:969 8490:1:1:107 8491:1:1:229 8498:1:1:8526 8544:16:1:8560",
   "8579:1:1:8580 9398:26:1:9424 11264:48:1:11312 11360:1:1:11361 11362:1:1:619 11363:1:1:7549",
   "11364:1:1:637 11367:3:2:11368 11373:1:1:593 11374:1:1:625 11375:1:1:592 11376:1:1:594",
   "11378:1:1:11379 11381:1:1:11382 11390:2:1:575 11392:50:2:11393 11499:2:2:11500",
   "11506:1:1:11507 42560:23:2:42561 42624:14:2:42625 42786:7:2:42787 42802:31:2:42803",
   "42873:2:2:42874 42877:1:1:7545 42878:5:2:42879 42891:1:1:42892 42893:1:1:613 42896:2:2:42897",
   "42902:10:2:42903 42922:1:1:614 42923:1:1:604 42924:1:1:609 42925:1:1:620 42926:1:1:618",
   "42928:1:1:670 42929:1:1:647 42930:1:1:669 42931:1:1:43859 42932:8:2:42933 42948:1:1:42900",
   "42949:1:1:642 42950:1:1:7566 42951:2:2:42952 42960:1:1:42961 42966:2:2:42967 42997:1:1:42998",
   "43888:80:1:5024 65313:26:1:65345 66560:40:1:66600 66736:36:1:66776 66928:19:2:66967",
   "66929:10:1:66968 66941:14:1:66980 66957:6:1:66996 66965:1:1:67004 68736:51:1:68800",
   "71840:32:1:71872 93760:32:1:93792 125184:34:1:125218"]

/-- Code points at even distances that folding moves by the same amount. -/
structure Progression where
  start : Nat
  count : Nat
  stride : Nat
  target : Nat
deriving DecidableEq, Repr

namespace Progression

/-- The fold of a code point of the progression. -/
def image? (p : Progression) (n : Nat) : Option Nat :=
  let k := (n - p.start) / p.stride
  if p.start ≤ n ∧ k < p.count ∧ p.start + k * p.stride = n then some (p.target + (n - p.start))
  else none

/-- The code point of the progression with a given fold. -/
def source? (p : Progression) (m : Nat) : Option Nat :=
  let n := p.start + (m - p.target)
  if p.target ≤ m ∧ p.image? n = some m then some n else none

end Progression

/-- The progressions in a list of numbers. -/
def progressions : List Nat → List Progression
  | start :: count :: stride :: image :: rest => ⟨start, count, stride, image⟩ :: progressions rest
  | _ => []

/-- The progressions that folding maps. -/
def table : List Progression := progressions (numbers folds)

/-- The fold of a code point. -/
def fold (n : Nat) : Nat := (table.findSome? (·.image? n)).getD n

/-- The code points with the same fold as a given one. -/
def orbit (n : Nat) : List Nat :=
  let m := fold n
  m :: table.filterMap (·.source? m)

/-- The characters that a set holds, or that differ in case only from one that it holds. -/
def closure (s : Char → Bool) : Char → Bool :=
  fun c => s c || (orbit c.toNat).any fun n => s (Char.ofNat n)

end TextTemplate.Unicode.CaseFold
