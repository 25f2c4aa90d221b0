import TextTemplate.Unicode.Runs

/-!
# Scripts

Each code point has one script; some are used in further scripts, or in others, which their script
extensions tell. A script is known by its code of four letters.
-/

namespace TextTemplate.Unicode.Script

/-- The scripts of all code points, in runs. -/
def runs : List String :=
  ["Zyyy65Latn26Zyyy6Latn26Zyyy47LatnZyyy15LatnZyyy5Latn23ZyyyLatn31ZyyyLatn449Zyyy39Latn5Zyyy5",
   "Bopo2Zyyy20Zinh112Grek4ZyyyGrek3Zzzz2Grek4ZyyyGrekZzzz4GrekZyyyGrekZyyyGrek3ZzzzGrekZzzzGrek20",
   "ZzzzGrek63Copt14Grek16Cyrl133Zinh2Cyrl169ZzzzArmn38Zzzz2Armn50Zzzz2Armn3ZzzzHebr55Zzzz8Hebr27",
   "Zzzz4Hebr6Zzzz11Arab5ZyyyArab6ZyyyArab14ZyyyArab3ZyyyArab32ZyyyArab10Zinh11Arab26ZinhArab108",
   "ZyyyArab34Syrc14ZzzzSyrc60Zzzz2Syrc3Arab48Thaa50Zzzz14Nkoo59Zzzz2Nkoo3Samr46Zzzz2Samr15Zzzz",
   "Mand28Zzzz2MandZzzzSyrc11Zzzz5Arab31ZzzzArab2Zzzz6Arab74ZyyyArab29Deva81Zinh4Deva15Zyyy2Deva26",
   "Beng4ZzzzBeng8Zzzz2Beng2Zzzz2Beng22ZzzzBeng7ZzzzBengZzzz3Beng4Zzzz2Beng9Zzzz2Beng2Zzzz2Beng4",
   "Zzzz8BengZzzz4Beng2ZzzzBeng5Zzzz2Beng25Zzzz2Guru3ZzzzGuru6Zzzz4Guru2Zzzz2Guru22ZzzzGuru7Zzzz",
   "Guru2ZzzzGuru2ZzzzGuru2Zzzz2GuruZzzzGuru5Zzzz4Guru2Zzzz2Guru3Zzzz3GuruZzzz7Guru4ZzzzGuruZzzz7",
   "Guru17Zzzz10Gujr3ZzzzGujr9ZzzzGujr3ZzzzGujr22ZzzzGujr7ZzzzGujr2ZzzzGujr5Zzzz2Gujr10ZzzzGujr3",
   "ZzzzGujr3Zzzz2GujrZzzz15Gujr4Zzzz2Gujr12Zzzz7Gujr7ZzzzOrya3ZzzzOrya8Zzzz2Orya2Zzzz2Orya22Zzzz",
   "Orya7ZzzzOrya2ZzzzOrya5Zzzz2Orya9Zzzz2Orya2Zzzz2Orya3Zzzz7Orya3Zzzz4Orya2ZzzzOrya5Zzzz2Orya18",
   "Zzzz10Taml2ZzzzTaml6Zzzz3Taml3ZzzzTaml4Zzzz3Taml2ZzzzTamlZzzzTaml2Zzzz3Taml2Zzzz3Taml3Zzzz3",
   "Taml12Zzzz4Taml5Zzzz3Taml3ZzzzTaml4Zzzz2TamlZzzz6TamlZzzz14Taml21Zzzz5Telu13ZzzzTelu3Zzzz",
   "Telu23ZzzzTelu16Zzzz2Telu9ZzzzTelu3ZzzzTelu4Zzzz7Telu2ZzzzTelu3Zzzz2TeluZzzz2Telu4Zzzz2Telu10",
   "Zzzz7Telu9Knda13ZzzzKnda3ZzzzKnda23ZzzzKnda10ZzzzKnda5Zzzz2Knda9ZzzzKnda3ZzzzKnda4Zzzz7Knda2",
   "Zzzz6Knda2ZzzzKnda4Zzzz2Knda10ZzzzKnda3Zzzz12Mlym13ZzzzMlym3ZzzzMlym51ZzzzMlym3ZzzzMlym6Zzzz4",
   "Mlym16Zzzz2Mlym26ZzzzSinh3ZzzzSinh18Zzzz3Sinh24ZzzzSinh9ZzzzSinhZzzz2Sinh7Zzzz3SinhZzzz4Sinh6",
   "ZzzzSinhZzzzSinh8Zzzz6Sinh10Zzzz2Sinh3Zzzz12Thai58Zzzz4ZyyyThai28Zzzz37Laoo2ZzzzLaooZzzzLaoo5",
   "ZzzzLaoo24ZzzzLaooZzzzLaoo23Zzzz2Laoo5ZzzzLaooZzzzLaoo7ZzzzLaoo10Zzzz2Laoo4Zzzz32Tibt72Zzzz",
   "Tibt36Zzzz4Tibt39ZzzzTibt36ZzzzTibt15ZzzzTibt7Zyyy4Tibt2Zzzz37Mymr160Geor38ZzzzGeorZzzz5Geor",
   "Zzzz2Geor43ZyyyGeor4Hang256Ethi73ZzzzEthi4Zzzz2Ethi7ZzzzEthiZzzzEthi4Zzzz2Ethi41ZzzzEthi4Zzzz2",
   "Ethi33ZzzzEthi4Zzzz2Ethi7ZzzzEthiZzzzEthi4Zzzz2Ethi15ZzzzEthi57ZzzzEthi4Zzzz2Ethi67Zzzz2Ethi32",
   "Zzzz3Ethi26Zzzz6Cher86Zzzz2Cher6Zzzz2Cans640Ogam29Zzzz3Runr75Zyyy3Runr11Zzzz7Tglg22Zzzz9Tglg",
   "Hano21Zyyy2Zzzz9Buhd20Zzzz12Tagb13ZzzzTagb3ZzzzTagb2Zzzz12Khmr94Zzzz2Khmr10Zzzz6Khmr10Zzzz6",
   "Mong2Zyyy2MongZyyyMong20Zzzz6Mong89Zzzz7Mong43Zzzz5Cans70Zzzz10Limb31ZzzzLimb12Zzzz4Limb12",
   "Zzzz4LimbZzzz3Limb12Tale30Zzzz2Tale5Zzzz11Talu44Zzzz4Talu26Zzzz6Talu11Zzzz3Talu2Khmr32Bugi28",
   "Zzzz2Bugi2Lana63ZzzzLana29Zzzz2Lana11Zzzz6Lana10Zzzz6Lana14Zzzz2Zinh31Zzzz49Bali77Zzzz3Bali47",
   "ZzzzSund64Batk52Zzzz8Batk4Lepc56Zzzz3Lepc15Zzzz3Lepc3Olck48Cyrl9Zzzz7Geor43Zzzz2Geor3Sund8",
   "Zzzz8Zinh3ZyyyZinh13ZyyyZinh7Zyyy4ZinhZyyy6ZinhZyyy3Zinh2ZyyyZzzz5Latn38Grek5CyrlLatn49Grek5",
   "Latn4Grek5Latn13CyrlLatn70GrekZinh64Latn256Grek22Zzzz2Grek6Zzzz2Grek38Zzzz2Grek6Zzzz2Grek8Zzzz",
   "GrekZzzzGrekZzzzGrekZzzzGrek31Zzzz2Grek53ZzzzGrek15ZzzzGrek14Zzzz2Grek6ZzzzGrek19Zzzz2Grek3",
   "ZzzzGrek9ZzzzZyyy12Zinh2Zyyy87ZzzzZyyy11LatnZzzz2Zyyy11LatnZyyy15ZzzzLatn13Zzzz3Zyyy33Zzzz15",
   "Zinh33Zzzz15Zyyy38GrekZyyy3Latn2Zyyy6LatnZyyy27LatnZyyy17Latn41Zyyy3Zzzz4Zyyy663Zzzz25Zyyy11",
   "Zzzz21Zyyy928Brai256Zyyy628Zzzz2Zyyy32ZzzzZyyy105Glag96Latn32Copt116Zzzz5Copt7Geor38ZzzzGeor",
   "Zzzz5GeorZzzz2Tfng56Zzzz7Tfng2Zzzz14TfngEthi23Zzzz9Ethi7ZzzzEthi7ZzzzEthi7ZzzzEthi7ZzzzEthi7",
   "ZzzzEthi7ZzzzEthi7ZzzzEthi7ZzzzCyrl32Zyyy94Zzzz34Hani26ZzzzHani89Zzzz12Hani214Zzzz26Zyyy12",
   "Zzzz4Zyyy5HaniZyyyHaniZyyy25Hani9Zinh4Hang2Zyyy8Hani4Zyyy4ZzzzHira86Zzzz2Zinh2Zyyy2Hira3Zyyy",
   "Kana90Zyyy2Kana3Zzzz5Bopo43ZzzzHang94ZzzzZyyy16Bopo32Zyyy36Zzzz12Kana16Hang31ZzzzZyyy64Hang31",
   "Zyyy81Kana47ZyyyKana88Zyyy168Hani6592Zyyy64Hani20992Yiii1165Zzzz3Yiii55Zzzz9Lisu48Vaii300",
   "Zzzz20Cyrl96Bamu88Zzzz8Zyyy34Latn102Zyyy3Latn64Zzzz5Latn2ZzzzLatnZzzzLatn5Zzzz24Latn14Sylo45",
   "Zzzz3Zyyy10Zzzz6Phag56Zzzz8Saur70Zzzz8Saur12Zzzz6Deva32Kali46ZyyyKaliRjng36Zzzz11RjngHang29",
   "Zzzz3Java78ZzzzZyyyJava10Zzzz4Java2Mymr31ZzzzCham55Zzzz9Cham14Zzzz2Cham10Zzzz2Cham4Mymr32",
   "Tavt67Zzzz24Tavt5Mtei23Zzzz10Ethi6Zzzz2Ethi6Zzzz2Ethi6Zzzz9Ethi7ZzzzEthi7ZzzzLatn43ZyyyLatn9",
   "GrekLatn4Zyyy2Zzzz4Cher80Mtei46Zzzz2Mtei10Zzzz6Hang11172Zzzz12Hang23Zzzz4Hang49Zzzz8452Hani366",
   "Zzzz2Hani106Zzzz38Latn7Zzzz12Armn5Zzzz5Hebr26ZzzzHebr5ZzzzHebrZzzzHebr2ZzzzHebr2ZzzzHebr10",
   "Arab115Zzzz16Arab363Zyyy2Arab80Zzzz2Arab54Zzzz7ArabZzzz32Arab16Zinh16Zyyy10Zzzz6Zinh14Cyrl2",
   "Zyyy35ZzzzZyyy19ZzzzZyyy4Zzzz4Arab5ZzzzArab135Zzzz2ZyyyZzzzZyyy32Latn26Zyyy6Latn26Zyyy11Kana10",
   "ZyyyKana45Zyyy2Hang31Zzzz3Hang6Zzzz2Hang6Zzzz2Hang6Zzzz2Hang3Zzzz3Zyyy7ZzzzZyyy7Zzzz10Zyyy5",
   "Zzzz2Linb12ZzzzLinb26ZzzzLinb19ZzzzLinb2ZzzzLinb15Zzzz2Linb14Zzzz34Linb123Zzzz5Zyyy3Zzzz4",
   "Zyyy45Zzzz3Zyyy9Grek79ZzzzZyyy13Zzzz3GrekZzzz47Zyyy45ZinhZzzz130Lyci29Zzzz3Cari49Zzzz15Zinh",
   "Zyyy27Zzzz4Ital36Zzzz9Ital3Goth27Zzzz5Perm43Zzzz5Ugar30ZzzzUgarXpeo36Zzzz4Xpeo14Zzzz42Dsrt80",
   "Shaw48Osma30Zzzz2Osma10Zzzz6Osge36Zzzz4Osge36Zzzz4Elba40Zzzz8Aghb52Zzzz11AghbVith11ZzzzVith15",
   "ZzzzVith7ZzzzVith2ZzzzVith11ZzzzVith15ZzzzVith7ZzzzVith2Zzzz67Lina311Zzzz9Lina22Zzzz10Lina8",
   "Zzzz24Latn6ZzzzLatn42ZzzzLatn9Zzzz69Cprt6Zzzz2CprtZzzzCprt44ZzzzCprt2Zzzz3CprtZzzz2CprtArmi22",
   "ZzzzArmi9Palm32Nbat31Zzzz8Nbat9Zzzz48Hatr19ZzzzHatr2Zzzz5Hatr5Phnx28Zzzz3PhnxLydi26Zzzz5Lydi",
   "Zzzz64Mero32Merc24Zzzz4Merc20Zzzz2Merc46Khar4ZzzzKhar2Zzzz5Khar8ZzzzKhar3ZzzzKhar29Zzzz2Khar3",
   "Zzzz4Khar10Zzzz7Khar9Zzzz7Sarb32Narb32Zzzz32Mani39Zzzz4Mani12Zzzz9Avst54Zzzz3Avst7Prti22Zzzz2",
   "Prti8Phli19Zzzz5Phli8Phlp18Zzzz7Phlp4Zzzz12Phlp7Zzzz80Orkh73Zzzz55Hung51Zzzz13Hung51Zzzz7Hung6",
   "Rohg40Zzzz8Rohg10Zzzz294Arab31ZzzzYezi42ZzzzYezi3Zzzz2Yezi2Zzzz75Arab3Sogo40Zzzz8Sogd42Zzzz22",
   "Ougr26Zzzz38Chrs28Zzzz20Elym23Zzzz9Brah78Zzzz4Brah36Zzzz9BrahKthi67Zzzz10KthiZzzz2Sora25Zzzz7",
   "Sora10Zzzz6Cakm53ZzzzCakm18Zzzz8Mahj39Zzzz9Shrd96ZzzzSinh20Zzzz11Khoj18ZzzzKhoj47Zzzz62Mult7",
   "ZzzzMultZzzzMult4ZzzzMult15ZzzzMult11Zzzz6Sind59Zzzz5Sind10Zzzz6Gran4ZzzzGran8Zzzz2Gran2Zzzz2",
   "Gran22ZzzzGran7ZzzzGran2ZzzzGran5ZzzzZinhGran9Zzzz2Gran2Zzzz2Gran3Zzzz2GranZzzz6GranZzzz5Gran7",
   "Zzzz2Gran7Zzzz3Gran5Zzzz139Newa92ZzzzNewa5Zzzz30Tirh72Zzzz8Tirh10Zzzz166Sidd54Zzzz2Sidd38",
   "Zzzz34Modi69Zzzz11Modi10Zzzz6Mong13Zzzz19Takr58Zzzz6Takr10Zzzz54Ahom27Zzzz2Ahom15Zzzz4Ahom23",
   "Zzzz185Dogr60Zzzz100Wara83Zzzz12WaraDiak7Zzzz2DiakZzzz2Diak8ZzzzDiak2ZzzzDiak30ZzzzDiak2Zzzz2",
   "Diak12Zzzz9Diak10Zzzz70Nand8Zzzz2Nand46Zzzz2Nand11Zzzz27Zanb72Zzzz8Soyo83Zzzz13Cans16Pauc57",
   "Zzzz7Deva10Zzzz246Bhks9ZzzzBhks45ZzzzBhks14Zzzz10Bhks29Zzzz3Marc32Zzzz2Marc22ZzzzMarc14Zzzz73",
   "Gonm7ZzzzGonm2ZzzzGonm44Zzzz3GonmZzzzGonm2ZzzzGonm9Zzzz8Gonm10Zzzz6Gong6ZzzzGong2ZzzzGong37",
   "ZzzzGong2ZzzzGong6Zzzz7Gong10Zzzz310Maka25Zzzz7Kawi17ZzzzKawi41Zzzz3Kawi28Zzzz86LisuZzzz15",
   "Taml50Zzzz13TamlXsux922Zzzz102Xsux111ZzzzXsux5Zzzz11Xsux196Zzzz2636Cpmn99Zzzz13Egyp1110",
   "Zzzz4010Hluw583Zzzz8633Bamu569Zzzz7Mroo31ZzzzMroo10Zzzz4Mroo2Tnsa79ZzzzTnsa10Zzzz6Bass30Zzzz2",
   "Bass6Zzzz10Hmng70Zzzz10Hmng10ZzzzHmng7ZzzzHmng21Zzzz5Hmng19Zzzz688Medf91Zzzz101Plrd75Zzzz4",
   "Plrd57Zzzz7Plrd17Zzzz64TangNshuHani2KitsZzzz11Hani2Zzzz14Tang6136Zzzz8Tang768Kits470Zzzz42",
   "Tang9Zzzz8935Kana4ZzzzKana7ZzzzKana2ZzzzKanaHira287Kana3Zzzz15HiraZzzz29Hira3Zzzz2KanaZzzz14",
   "Kana4Zzzz8Nshu396Zzzz2308Dupl107Zzzz5Dupl13Zzzz3Dupl9Zzzz7Dupl10Zzzz2Dupl4Zyyy4Zzzz4700Zinh46",
   "Zzzz2Zinh23Zzzz9Zyyy116Zzzz60Zyyy246Zzzz10Zyyy39Zzzz2Zyyy62Zinh3Zyyy17Zinh8Zyyy2Zinh7Zyyy30",
   "Zinh4Zyyy61Zzzz21Grek70Zzzz122Zyyy20Zzzz12Zyyy20Zzzz12Zyyy87Zzzz9Zyyy25Zzzz135Zyyy85ZzzzZyyy71",
   "ZzzzZyyy2Zzzz2ZyyyZzzz2Zyyy2Zzzz2Zyyy4ZzzzZyyy12ZzzzZyyyZzzzZyyy7ZzzzZyyy65ZzzzZyyy4Zzzz2Zyyy8",
   "ZzzzZyyy7ZzzzZyyy28ZzzzZyyy4ZzzzZyyy5ZzzzZyyyZzzz3Zyyy7ZzzzZyyy340Zzzz2Zyyy292Zzzz2Zyyy50",
   "Sgnw652Zzzz15Sgnw5ZzzzSgnw15Zzzz1104Latn31Zzzz6Latn6Zzzz213Glag7ZzzzGlag17Zzzz2Glag7ZzzzGlag2",
   "ZzzzGlag5Zzzz5Cyrl62Zzzz33CyrlZzzz112Hmnp45Zzzz3Hmnp14Zzzz2Hmnp10Zzzz4Hmnp2Zzzz320Toto31Zzzz17",
   "Wcho58Zzzz5WchoZzzz464Nagm42Zzzz742Ethi7ZzzzEthi4ZzzzEthi2ZzzzEthi15ZzzzMend197Zzzz2Mend16",
   "Zzzz41Adlm76Zzzz4Adlm10Zzzz4Adlm2Zzzz785Zyyy68Zzzz76Zyyy61Zzzz194Arab4ZzzzArab27ZzzzArab2Zzzz",
   "ArabZzzz2ArabZzzzArab10ZzzzArab4ZzzzArabZzzzArabZzzz6ArabZzzz4ArabZzzzArabZzzzArabZzzzArab3",
   "ZzzzArab2ZzzzArabZzzz2ArabZzzzArabZzzzArabZzzzArabZzzzArabZzzzArab2ZzzzArabZzzz2Arab4ZzzzArab7",
   "ZzzzArab4ZzzzArab4ZzzzArabZzzzArab10ZzzzArab17Zzzz5Arab3ZzzzArab5ZzzzArab17Zzzz52Arab2Zzzz270",
   "Zyyy44Zzzz4Zyyy100Zzzz12Zyyy15Zzzz2Zyyy15ZzzzZyyy15ZzzzZyyy37Zzzz10Zyyy174Zzzz56Zyyy26Hira",
   "Zyyy2Zzzz13Zyyy44Zzzz4Zyyy9Zzzz7Zyyy2Zzzz14Zyyy6Zzzz154Zyyy984Zzzz4Zyyy17Zzzz3Zyyy13Zzzz3",
   "Zyyy119Zzzz4Zyyy95Zzzz6Zyyy12Zzzz4ZyyyZzzz15Zyyy12Zzzz4Zyyy56Zzzz8Zyyy10Zzzz6Zyyy40Zzzz8Zyyy30",
   "Zzzz2Zyyy2Zzzz78Zyyy340Zzzz12Zyyy14Zzzz2Zyyy13Zzzz3Zyyy9Zzzz7Zyyy46ZzzzZyyy7Zzzz8Zyyy14Zzzz4",
   "Zyyy9Zzzz7Zyyy9Zzzz7Zyyy147ZzzzZyyy55Zzzz37Zyyy10Zzzz1030Hani42720Zzzz32Hani4154Zzzz6Hani222",
   "Zzzz2Hani5762Zzzz14Hani7473Zzzz3103Hani542Zzzz1506Hani4939Zzzz5Hani4192Zzzz711761ZyyyZzzz30",
   "Zyyy96Zzzz128Zinh240Zzzz196112"]

/-- First code point, length and scripts of the runs whose script extensions are not their script. -/
def extensions : List String :=
  ["834:1:Grek 837:1:Grek 867:13:Latn 1155:1:Cyrl+Perm 1156:1:Cyrl+Glag 1157:2:Cyrl+Latn",
   "1159:1:Cyrl+Glag 1548:1:Arab+Nkoo+Rohg+Syrc+Thaa+Yezi 1563:1:Arab+Nkoo+Rohg+Syrc+Thaa+Yezi",
   "1564:1:Arab+Syrc+Thaa 1567:1:Adlm+Arab+Nkoo+Rohg+Syrc+Thaa+Yezi",
   "1600:1:Adlm+Arab+Mand+Mani+Ougr+Phlp+Rohg+Sogd+Syrc 1611:11:Arab+Syrc 1632:10:Arab+Thaa+Yezi",
   "1648:1:Arab+Syrc 1748:1:Arab+Rohg",
   "2385:1:Beng+Deva+Gran+Gujr+Guru+Knda+Latn+Mlym+Orya+Shrd+Taml+Telu+Tirh",
   "2386:1:Beng+Deva+Gran+Gujr+Guru+Knda+Latn+Mlym+Orya+Taml+Telu+Tirh",
   "2404:1:Beng+Deva+Dogr+Gong+Gonm+Gran+Gujr+Guru+Knda+Mahj+Mlym+Nand+Orya+Sind+Sinh+Sylo+Takr+Taml+Telu+Tirh",
   "2405:1:Beng+Deva+Dogr+Gong+Gonm+Gran+Gujr+Guru+Knda+Limb+Mahj+Mlym+Nand+Orya+Sind+Sinh+Sylo+Takr+Taml+Telu+Tirh",
   "2406:10:Deva+Dogr+Kthi+Mahj 2534:10:Beng+Cakm+Sylo 2662:10:Guru+Mult 2790:10:Gujr+Khoj",
   "3046:14:Gran+Taml 3302:10:Knda+Nand 4160:10:Cakm+Mymr+Tale 4347:1:Geor+Latn",
   "5941:2:Buhd+Hano+Tagb+Tglg 6146:2:Mong+Phag 6149:1:Mong+Phag 7376:1:Beng+Deva+Gran+Knda",
   "7377:1:Deva 7378:1:Beng+Deva+Gran+Knda 7379:1:Deva+Gran 7380:1:Deva 7381:2:Beng+Deva",
   "7383:1:Deva+Shrd 7384:1:Beng+Deva 7385:1:Deva+Shrd 7386:1:Deva+Knda+Mlym+Orya+Taml+Telu",
   "7387:1:Deva 7388:2:Deva+Shrd 7390:2:Deva 7392:1:Deva+Shrd 7393:1:Beng+Deva 7394:7:Deva",
   "7401:1:Deva+Nand 7402:1:Beng+Deva 7403:2:Deva 7405:1:Beng+Deva 7406:4:Deva",
   "7410:1:Beng+Deva+Gran+Knda+Nand+Orya+Telu+Tirh 7411:1:Deva+Gran 7412:1:Deva+Gran+Knda",
   "7413:2:Beng+Deva 7415:1:Beng 7416:2:Deva+Gran 7418:1:Nand 7616:2:Grek 7672:1:Cyrl+Syrc",
   "7674:1:Syrc 8239:1:Latn+Mong 8432:1:Deva+Gran+Latn 11843:1:Cyrl+Glag",
   "12289:2:Bopo+Hang+Hani+Hira+Kana+Yiii 12291:1:Bopo+Hang+Hani+Hira+Kana 12294:1:Hani",
   "12296:10:Bopo+Hang+Hani+Hira+Kana+Yiii 12307:1:Bopo+Hang+Hani+Hira+Kana",
   "12308:8:Bopo+Hang+Hani+Hira+Kana+Yiii 12316:4:Bopo+Hang+Hani+Hira+Kana 12330:4:Bopo+Hani",
   "12336:1:Bopo+Hang+Hani+Hira+Kana 12337:5:Hira+Kana 12343:1:Bopo+Hang+Hani+Hira+Kana",
   "12348:2:Hani+Hira+Kana 12350:2:Hani 12441:4:Hira+Kana 12448:1:Hira+Kana",
   "12539:1:Bopo+Hang+Hani+Hira+Kana+Yiii 12540:1:Hira+Kana 12688:16:Hani 12736:36:Hani",
   "12832:40:Hani 12928:49:Hani 12992:12:Hani 13055:1:Hani 13144:25:Hani 13179:5:Hani",
   "13280:31:Hani 42607:1:Cyrl+Glag 42752:8:Hani+Latn",
   "43056:3:Deva+Dogr+Gujr+Guru+Khoj+Knda+Kthi+Mahj+Mlym+Modi+Nand+Sind+Takr+Tirh",
   "43059:3:Deva+Dogr+Gujr+Guru+Khoj+Knda+Kthi+Mahj+Modi+Nand+Sind+Takr+Tirh",
   "43062:4:Deva+Dogr+Gujr+Guru+Khoj+Kthi+Mahj+Modi+Sind+Takr+Tirh 43249:1:Beng+Deva",
   "43251:1:Deva+Taml 43310:1:Kali+Latn+Mymr 43471:1:Bugi+Java 64830:2:Arab+Nkoo",
   "65010:1:Arab+Thaa 65021:1:Arab+Thaa 65093:2:Bopo+Hang+Hani+Hira+Kana",
   "65377:5:Bopo+Hang+Hani+Hira+Kana+Yiii 65392:1:Hira+Kana 65438:2:Hira+Kana",
   "65792:2:Cpmn+Cprt+Linb 65794:1:Cprt+Linb 65799:45:Cprt+Lina+Linb 65847:9:Cprt+Linb",
   "66272:28:Arab+Copt 68338:1:Mani+Ougr 70401:1:Gran+Taml 70403:1:Gran+Taml 70459:2:Gran+Taml",
   "73680:2:Gran+Taml 73683:1:Gran+Taml 113824:4:Dupl 119648:18:Hani 127568:2:Hani"]

/-- The codes of scripts, with their names as they are compared. -/
def names : List String :=
  ["Adlm=adlm,adlam Aghb=aghb,caucasianalbanian Ahom=ahom Arab=arab,arabic",
   "Armi=armi,imperialaramaic Armn=armn,armenian Avst=avst,avestan Bali=bali,balinese",
   "Bamu=bamu,bamum Bass=bass,bassavah Batk=batk,batak Beng=beng,bengali Bhks=bhks,bhaiksuki",
   "Bopo=bopo,bopomofo Brah=brah,brahmi Brai=brai,braille Bugi=bugi,buginese Buhd=buhd,buhid",
   "Cakm=cakm,chakma Cans=cans,canadianaboriginal Cari=cari,carian Cham=cham Cher=cher,cherokee",
   "Chrs=chrs,chorasmian Copt=copt,coptic,qaac Cpmn=cpmn,cyprominoan Cprt=cprt,cypriot",
   "Cyrl=cyrl,cyrillic Deva=deva,devanagari Diak=diak,divesakuru Dogr=dogr,dogra",
   "Dsrt=dsrt,deseret Dupl=dupl,duployan Egyp=egyp,egyptianhieroglyphs Elba=elba,elbasan",
   "Elym=elym,elymaic Ethi=ethi,ethiopic Geor=geor,georgian Glag=glag,glagolitic",
   "Gong=gong,gunjalagondi Gonm=gonm,masaramgondi Goth=goth,gothic Gran=gran,grantha",
   "Grek=grek,greek Gujr=gujr,gujarati Guru=guru,gurmukhi Hang=hang,hangul Hani=hani,han",
   "Hano=hano,hanunoo Hatr=hatr,hatran Hebr=hebr,hebrew Hira=hira,hiragana",
   "Hluw=hluw,anatolianhieroglyphs Hmng=hmng,pahawhhmong Hmnp=hmnp,nyiakengpuachuehmong",
   "Hung=hung,oldhungarian Ital=ital,olditalic Java=java,javanese Kali=kali,kayahli",
   "Kana=kana,katakana Kawi=kawi Khar=khar,kharoshthi Khmr=khmr,khmer Khoj=khoj,khojki",
   "Kits=kits,khitansmallscript Knda=knda,kannada Kthi=kthi,kaithi Lana=lana,taitham",
   "Laoo=laoo,lao Latn=latn,latin Lepc=lepc,lepcha Limb=limb,limbu Lina=lina,lineara",
   "Linb=linb,linearb Lisu=lisu Lyci=lyci,lycian Lydi=lydi,lydian Mahj=mahj,mahajani",
   "Maka=maka,makasar Mand=mand,mandaic Mani=mani,manichaean Marc=marc,marchen",
   "Medf=medf,medefaidrin Mend=mend,mendekikakui Merc=merc,meroiticcursive",
   "Mero=mero,meroitichieroglyphs Mlym=mlym,malayalam Modi=modi Mong=mong,mongolian Mroo=mroo,mro",
   "Mtei=mtei,meeteimayek Mult=mult,multani Mymr=mymr,myanmar Nagm=nagm,nagmundari",
   "Nand=nand,nandinagari Narb=narb,oldnortharabian Nbat=nbat,nabataean Newa=newa Nkoo=nkoo,nko",
   "Nshu=nshu,nushu Ogam=ogam,ogham Olck=olck,olchiki Orkh=orkh,oldturkic Orya=orya,oriya",
   "Osge=osge,osage Osma=osma,osmanya Ougr=ougr,olduyghur Palm=palm,palmyrene Pauc=pauc,paucinhau",
   "Perm=perm,oldpermic Phag=phag,phagspa Phli=phli,inscriptionalpahlavi Phlp=phlp,psalterpahlavi",
   "Phnx=phnx,phoenician Plrd=plrd,miao Prti=prti,inscriptionalparthian Rjng=rjng,rejang",
   "Rohg=rohg,hanifirohingya Runr=runr,runic Samr=samr,samaritan Sarb=sarb,oldsoutharabian",
   "Saur=saur,saurashtra Sgnw=sgnw,signwriting Shaw=shaw,shavian Shrd=shrd,sharada",
   "Sidd=sidd,siddham Sind=sind,khudawadi Sinh=sinh,sinhala Sogd=sogd,sogdian",
   "Sogo=sogo,oldsogdian Sora=sora,sorasompeng Soyo=soyo,soyombo Sund=sund,sundanese",
   "Sylo=sylo,sylotinagri Syrc=syrc,syriac Tagb=tagb,tagbanwa Takr=takr,takri Tale=tale,taile",
   "Talu=talu,newtailue Taml=taml,tamil Tang=tang,tangut Tavt=tavt,taiviet Telu=telu,telugu",
   "Tfng=tfng,tifinagh Tglg=tglg,tagalog Thaa=thaa,thaana Thai=thai Tibt=tibt,tibetan",
   "Tirh=tirh,tirhuta Tnsa=tnsa,tangsa Toto=toto Ugar=ugar,ugaritic Vaii=vaii,vai",
   "Vith=vith,vithkuqi Wara=wara,warangciti Wcho=wcho,wancho Xpeo=xpeo,oldpersian",
   "Xsux=xsux,cuneiform Yezi=yezi,yezidi Yiii=yiii,yi Zanb=zanb,zanabazarsquare",
   "Zinh=zinh,inherited,qaai Zyyy=zyyy,common"]

/-- The scripts of all code points, with the lengths of their runs. -/
def table : List (String × Nat) := labelled 4 runs

/-- The runs with script extensions of their own. -/
def extensionTable : List (Span × List String) :=
  (extensions.flatMap (·.splitOn " ")).filterMap fun e =>
    match e.splitOn ":" with
    | [start, len, codes] => do
      let n ← start.toNat?
      let k ← len.toNat?
      return (⟨n, n + k⟩, codes.splitOn "+")
    | _ => none

/-- The script of a character. -/
def of (c : Char) : String := (labelAt c.toNat table).getD "Zzzz"

/-- The scripts that a character is used in. -/
def extensionsOf (c : Char) : List String :=
  match extensionTable.find? fun e => e.1.start ≤ c.toNat && c.toNat < e.1.stop with
  | some e => e.2
  | none => [of c]

/-- The code of a script with a loosely compared name. -/
def named? (name : String) : Option String :=
  (names.flatMap (·.splitOn " ")).findSome? fun e =>
    match e.splitOn "=" with
    | [code, names] => if (names.splitOn ",").contains name then some code else none
    | _ => none

end TextTemplate.Unicode.Script
