import Graft.Text.Unicode.Runs
/-!
# The script of a character

One table of runs in the order of code points: each is a length in hexadecimal and the four letters of the
script. It is that of Unicode 15.
-/

namespace Graft.Unicode

def scriptRuns : List String := [
  "41Zyyy1aLatn6Zyyy1aLatn2fZyyy1LatnfZyyy1Latn5Zyyy17Latn1Zyyy1fLatn1Zyyy1c1Latn27Zyyy5Latn5Zyyy2Bopo",
  "14Zyyy70Zinh4Grek1Zyyy3Grek2Zzzz4Grek1Zyyy1Grek4Zzzz1Grek1Zyyy1Grek1Zyyy3Grek1Zzzz1Grek1Zzzz14Grek1Zzzz",
  "3fGrekeCopt10Grek85Cyrl2Zinha9Cyrl1Zzzz26Armn2Zzzz32Armn2Zzzz3Armn1Zzzz37Hebr8Zzzz1bHebr4Zzzz6HebrbZzzz",
  "5Arab1Zyyy6Arab1ZyyyeArab1Zyyy3Arab1Zyyy20Arab1ZyyyaArabbZinh1aArab1Zinh6cArab1Zyyy22ArabeSyrc1Zzzz",
  "3cSyrc2Zzzz3Syrc30Arab32ThaaeZzzz3bNkoo2Zzzz3Nkoo2eSamr2ZzzzfSamr1Zzzz1cMand2Zzzz1Mand1ZzzzbSyrc5Zzzz",
  "1fArab1Zzzz2Arab6Zzzz4aArab1Zyyy1dArab51Deva4ZinhfDeva2Zyyy1aDeva4Beng1Zzzz8Beng2Zzzz2Beng2Zzzz16Beng",
  "1Zzzz7Beng1Zzzz1Beng3Zzzz4Beng2Zzzz9Beng2Zzzz2Beng2Zzzz4Beng8Zzzz1Beng4Zzzz2Beng1Zzzz5Beng2Zzzz19Beng",
  "2Zzzz3Guru1Zzzz6Guru4Zzzz2Guru2Zzzz16Guru1Zzzz7Guru1Zzzz2Guru1Zzzz2Guru1Zzzz2Guru2Zzzz1Guru1Zzzz5Guru",
  "4Zzzz2Guru2Zzzz3Guru3Zzzz1Guru7Zzzz4Guru1Zzzz1Guru7Zzzz11GuruaZzzz3Gujr1Zzzz9Gujr1Zzzz3Gujr1Zzzz16Gujr",
  "1Zzzz7Gujr1Zzzz2Gujr1Zzzz5Gujr2ZzzzaGujr1Zzzz3Gujr1Zzzz3Gujr2Zzzz1GujrfZzzz4Gujr2ZzzzcGujr7Zzzz7Gujr",
  "1Zzzz3Orya1Zzzz8Orya2Zzzz2Orya2Zzzz16Orya1Zzzz7Orya1Zzzz2Orya1Zzzz5Orya2Zzzz9Orya2Zzzz2Orya2Zzzz3Orya",
  "7Zzzz3Orya4Zzzz2Orya1Zzzz5Orya2Zzzz12OryaaZzzz2Taml1Zzzz6Taml3Zzzz3Taml1Zzzz4Taml3Zzzz2Taml1Zzzz1Taml",
  "1Zzzz2Taml3Zzzz2Taml3Zzzz3Taml3ZzzzcTaml4Zzzz5Taml3Zzzz3Taml1Zzzz4Taml2Zzzz1Taml6Zzzz1TamleZzzz15Taml",
  "5ZzzzdTelu1Zzzz3Telu1Zzzz17Telu1Zzzz10Telu2Zzzz9Telu1Zzzz3Telu1Zzzz4Telu7Zzzz2Telu1Zzzz3Telu2Zzzz1Telu",
  "2Zzzz4Telu2ZzzzaTelu7Zzzz9TeludKnda1Zzzz3Knda1Zzzz17Knda1ZzzzaKnda1Zzzz5Knda2Zzzz9Knda1Zzzz3Knda1Zzzz",
  "4Knda7Zzzz2Knda6Zzzz2Knda1Zzzz4Knda2ZzzzaKnda1Zzzz3KndacZzzzdMlym1Zzzz3Mlym1Zzzz33Mlym1Zzzz3Mlym1Zzzz",
  "6Mlym4Zzzz10Mlym2Zzzz1aMlym1Zzzz3Sinh1Zzzz12Sinh3Zzzz18Sinh1Zzzz9Sinh1Zzzz1Sinh2Zzzz7Sinh3Zzzz1Sinh4Zzzz",
  "6Sinh1Zzzz1Sinh1Zzzz8Sinh6ZzzzaSinh2Zzzz3SinhcZzzz3aThai4Zzzz1Zyyy1cThai25Zzzz2Laoo1Zzzz1Laoo1Zzzz5Laoo",
  "1Zzzz18Laoo1Zzzz1Laoo1Zzzz17Laoo2Zzzz5Laoo1Zzzz1Laoo1Zzzz7Laoo1ZzzzaLaoo2Zzzz4Laoo20Zzzz48Tibt1Zzzz",
  "24Tibt4Zzzz27Tibt1Zzzz24Tibt1ZzzzfTibt1Zzzz7Tibt4Zyyy2Tibt25Zzzza0Mymr26Geor1Zzzz1Geor5Zzzz1Geor2Zzzz",
  "2bGeor1Zyyy4Geor100Hang49Ethi1Zzzz4Ethi2Zzzz7Ethi1Zzzz1Ethi1Zzzz4Ethi2Zzzz29Ethi1Zzzz4Ethi2Zzzz21Ethi",
  "1Zzzz4Ethi2Zzzz7Ethi1Zzzz1Ethi1Zzzz4Ethi2ZzzzfEthi1Zzzz39Ethi1Zzzz4Ethi2Zzzz43Ethi2Zzzz20Ethi3Zzzz1aEthi",
  "6Zzzz56Cher2Zzzz6Cher2Zzzz280Cans1dOgam3Zzzz4bRunr3ZyyybRunr7Zzzz16Tglg9Zzzz1Tglg15Hano2Zyyy9Zzzz14Buhd",
  "cZzzzdTagb1Zzzz3Tagb1Zzzz2TagbcZzzz5eKhmr2ZzzzaKhmr6ZzzzaKhmr6Zzzz2Mong2Zyyy1Mong1Zyyy14Mong6Zzzz59Mong",
  "7Zzzz2bMong5Zzzz46CansaZzzz1fLimb1ZzzzcLimb4ZzzzcLimb4Zzzz1Limb3ZzzzcLimb1eTale2Zzzz5TalebZzzz2cTalu",
  "4Zzzz1aTalu6ZzzzbTalu3Zzzz2Talu20Khmr1cBugi2Zzzz2Bugi3fLana1Zzzz1dLana2ZzzzbLana6ZzzzaLana6ZzzzeLana",
  "2Zzzz1fZinh31Zzzz4dBali3Zzzz2fBali1Zzzz40Sund34Batk8Zzzz4Batk38Lepc3ZzzzfLepc3Zzzz3Lepc30Olck9Cyrl7Zzzz",
  "2bGeor2Zzzz3Geor8Sund8Zzzz3Zinh1ZyyydZinh1Zyyy7Zinh4Zyyy1Zinh6Zyyy1Zinh3Zyyy2Zinh1Zyyy5Zzzz26Latn5Grek",
  "1Cyrl31Latn5Grek4Latn5GrekdLatn1Cyrl46Latn1Grek40Zinh100Latn16Grek2Zzzz6Grek2Zzzz26Grek2Zzzz6Grek2Zzzz",
  "8Grek1Zzzz1Grek1Zzzz1Grek1Zzzz1Grek1Zzzz1fGrek2Zzzz35Grek1ZzzzfGrek1ZzzzeGrek2Zzzz6Grek1Zzzz13Grek2Zzzz",
  "3Grek1Zzzz9Grek1ZzzzcZyyy2Zinh57Zyyy1ZzzzbZyyy1Latn2ZzzzbZyyy1LatnfZyyy1ZzzzdLatn3Zzzz21ZyyyfZzzz21Zinh",
  "fZzzz26Zyyy1Grek3Zyyy2Latn6Zyyy1Latn1bZyyy1Latn11Zyyy29Latn3Zyyy4Zzzz297Zyyy19ZzzzbZyyy15Zzzz3a0Zyyy",
  "100Brai274Zyyy2Zzzz20Zyyy1Zzzz69Zyyy60Glag20Latn74Copt5Zzzz7Copt26Geor1Zzzz1Geor5Zzzz1Geor2Zzzz38Tfng",
  "7Zzzz2TfngeZzzz1Tfng17Ethi9Zzzz7Ethi1Zzzz7Ethi1Zzzz7Ethi1Zzzz7Ethi1Zzzz7Ethi1Zzzz7Ethi1Zzzz7Ethi1Zzzz",
  "7Ethi1Zzzz20Cyrl5eZyyy22Zzzz1aHani1Zzzz59HanicZzzzd6Hani1aZzzzcZyyy4Zzzz5Zyyy1Hani1Zyyy1Hani19Zyyy9Hani",
  "4Zinh2Hang8Zyyy4Hani4Zyyy1Zzzz56Hira2Zzzz2Zinh2Zyyy3Hira1Zyyy5aKana2Zyyy3Kana5Zzzz2bBopo1Zzzz5eHang1Zzzz",
  "10Zyyy20Bopo24ZyyycZzzz10Kana1fHang1Zzzz40Zyyy1fHang51Zyyy2fKana1Zyyy58Kanaa8Zyyy19c0Hani40Zyyy5200Hani",
  "48dYiii3Zzzz37Yiii9Zzzz30Lisu12cVaii14Zzzz60Cyrl58Bamu8Zzzz22Zyyy66Latn3Zyyy40Latn5Zzzz2Latn1Zzzz1Latn",
  "1Zzzz5Latn18ZzzzeLatn2dSylo3ZzzzaZyyy6Zzzz38Phag8Zzzz46Saur8ZzzzcSaur6Zzzz20Deva2eKali1Zyyy1Kali24Rjng",
  "bZzzz1Rjng1dHang3Zzzz4eJava1Zzzz1ZyyyaJava4Zzzz2Java1fMymr1Zzzz37Cham9ZzzzeCham2ZzzzaCham2Zzzz4Cham",
  "20Mymr43Tavt18Zzzz5Tavt17MteiaZzzz6Ethi2Zzzz6Ethi2Zzzz6Ethi9Zzzz7Ethi1Zzzz7Ethi1Zzzz2bLatn1Zyyy9Latn",
  "1Grek4Latn2Zyyy4Zzzz50Cher2eMtei2ZzzzaMtei6Zzzz2ba4HangcZzzz17Hang4Zzzz31Hang2104Zzzz16eHani2Zzzz6aHani",
  "26Zzzz7LatncZzzz5Armn5Zzzz1aHebr1Zzzz5Hebr1Zzzz1Hebr1Zzzz2Hebr1Zzzz2Hebr1ZzzzaHebr73Arab10Zzzz16bArab",
  "2Zyyy50Arab2Zzzz36Arab7Zzzz1Arab20Zzzz10Arab10ZinhaZyyy6ZzzzeZinh2Cyrl23Zyyy1Zzzz13Zyyy1Zzzz4Zyyy4Zzzz",
  "5Arab1Zzzz87Arab2Zzzz1Zyyy1Zzzz20Zyyy1aLatn6Zyyy1aLatnbZyyyaKana1Zyyy2dKana2Zyyy1fHang3Zzzz6Hang2Zzzz",
  "6Hang2Zzzz6Hang2Zzzz3Hang3Zzzz7Zyyy1Zzzz7ZyyyaZzzz5Zyyy2ZzzzcLinb1Zzzz1aLinb1Zzzz13Linb1Zzzz2Linb1Zzzz",
  "fLinb2ZzzzeLinb22Zzzz7bLinb5Zzzz3Zyyy4Zzzz2dZyyy3Zzzz9Zyyy4fGrek1ZzzzdZyyy3Zzzz1Grek2fZzzz2dZyyy1Zinh",
  "82Zzzz1dLyci3Zzzz31CarifZzzz1Zinh1bZyyy4Zzzz24Ital9Zzzz3Ital1bGoth5Zzzz2bPerm5Zzzz1eUgar1Zzzz1Ugar24Xpeo",
  "4ZzzzeXpeo2aZzzz50Dsrt30Shaw1eOsma2ZzzzaOsma6Zzzz24Osge4Zzzz24Osge4Zzzz28Elba8Zzzz34AghbbZzzz1AghbbVith",
  "1ZzzzfVith1Zzzz7Vith1Zzzz2Vith1ZzzzbVith1ZzzzfVith1Zzzz7Vith1Zzzz2Vith43Zzzz137Lina9Zzzz16LinaaZzzz8Lina",
  "18Zzzz6Latn1Zzzz2aLatn1Zzzz9Latn45Zzzz6Cprt2Zzzz1Cprt1Zzzz2cCprt1Zzzz2Cprt3Zzzz1Cprt2Zzzz1Cprt16Armi",
  "1Zzzz9Armi20Palm1fNbat8Zzzz9Nbat30Zzzz13Hatr1Zzzz2Hatr5Zzzz5Hatr1cPhnx3Zzzz1Phnx1aLydi5Zzzz1Lydi40Zzzz",
  "20Mero18Merc4Zzzz14Merc2Zzzz2eMerc4Khar1Zzzz2Khar5Zzzz8Khar1Zzzz3Khar1Zzzz1dKhar2Zzzz3Khar4ZzzzaKhar",
  "7Zzzz9Khar7Zzzz20Sarb20Narb20Zzzz27Mani4ZzzzcMani9Zzzz36Avst3Zzzz7Avst16Prti2Zzzz8Prti13Phli5Zzzz8Phli",
  "12Phlp7Zzzz4PhlpcZzzz7Phlp50Zzzz49Orkh37Zzzz33HungdZzzz33Hung7Zzzz6Hung28Rohg8ZzzzaRohg126Zzzz1fArab",
  "1Zzzz2aYezi1Zzzz3Yezi2Zzzz2Yezi4bZzzz3Arab28Sogo8Zzzz2aSogd16Zzzz1aOugr26Zzzz1cChrs14Zzzz17Elym9Zzzz",
  "4eBrah4Zzzz24Brah9Zzzz1Brah43KthiaZzzz1Kthi2Zzzz19Sora7ZzzzaSora6Zzzz35Cakm1Zzzz12Cakm8Zzzz27Mahj9Zzzz",
  "60Shrd1Zzzz14SinhbZzzz12Khoj1Zzzz2fKhoj3eZzzz7Mult1Zzzz1Mult1Zzzz4Mult1ZzzzfMult1ZzzzbMult6Zzzz3bSind",
  "5ZzzzaSind6Zzzz4Gran1Zzzz8Gran2Zzzz2Gran2Zzzz16Gran1Zzzz7Gran1Zzzz2Gran1Zzzz5Gran1Zzzz1Zinh9Gran2Zzzz",
  "2Gran2Zzzz3Gran2Zzzz1Gran6Zzzz1Gran5Zzzz7Gran2Zzzz7Gran3Zzzz5Gran8bZzzz5cNewa1Zzzz5Newa1eZzzz48Tirh8Zzzz",
  "aTirha6Zzzz36Sidd2Zzzz26Sidd22Zzzz45ModibZzzzaModi6ZzzzdMong13Zzzz3aTakr6ZzzzaTakr36Zzzz1bAhom2ZzzzfAhom",
  "4Zzzz17Ahomb9Zzzz3cDogr64Zzzz53WaracZzzz1Wara7Diak2Zzzz1Diak2Zzzz8Diak1Zzzz2Diak1Zzzz1eDiak1Zzzz2Diak",
  "2ZzzzcDiak9ZzzzaDiak46Zzzz8Nand2Zzzz2eNand2ZzzzbNand1bZzzz48Zanb8Zzzz53SoyodZzzz10Cans39Pauc7ZzzzaDeva",
  "f6Zzzz9Bhks1Zzzz2dBhks1ZzzzeBhksaZzzz1dBhks3Zzzz20Marc2Zzzz16Marc1ZzzzeMarc49Zzzz7Gonm1Zzzz2Gonm1Zzzz",
  "2cGonm3Zzzz1Gonm1Zzzz2Gonm1Zzzz9Gonm8ZzzzaGonm6Zzzz6Gong1Zzzz2Gong1Zzzz25Gong1Zzzz2Gong1Zzzz6Gong7Zzzz",
  "aGong136Zzzz19Maka7Zzzz11Kawi1Zzzz29Kawi3Zzzz1cKawi56Zzzz1LisufZzzz32TamldZzzz1Taml39aXsux66Zzzz6fXsux",
  "1Zzzz5XsuxbZzzzc4Xsuxa4cZzzz63CpmndZzzz456EgypfaaZzzz247Hluw21b9Zzzz239Bamu7Zzzz1fMroo1ZzzzaMroo4Zzzz",
  "2Mroo4fTnsa1ZzzzaTnsa6Zzzz1eBass2Zzzz6BassaZzzz46HmngaZzzzaHmng1Zzzz7Hmng1Zzzz15Hmng5Zzzz13Hmng2b0Zzzz",
  "5bMedf65Zzzz4bPlrd4Zzzz39Plrd7Zzzz11Plrd40Zzzz1Tang1Nshu2Hani1KitsbZzzz2HanieZzzz17f8Tang8Zzzz300Tang",
  "1d6Kits2aZzzz9Tang22e7Zzzz4Kana1Zzzz7Kana1Zzzz2Kana1Zzzz1Kana11fHira3KanafZzzz1Hira1dZzzz3Hira2Zzzz1Kana",
  "eZzzz4Kana8Zzzz18cNshu904Zzzz6bDupl5ZzzzdDupl3Zzzz9Dupl7ZzzzaDupl2Zzzz4Dupl4Zyyy125cZzzz2eZinh2Zzzz",
  "17Zinh9Zzzz74Zyyy3cZzzzf6ZyyyaZzzz27Zyyy2Zzzz3eZyyy3Zinh11Zyyy8Zinh2Zyyy7Zinh1eZyyy4Zinh3dZyyy15Zzzz",
  "46Grek7aZzzz14ZyyycZzzz14ZyyycZzzz57Zyyy9Zzzz19Zyyy87Zzzz55Zyyy1Zzzz47Zyyy1Zzzz2Zyyy2Zzzz1Zyyy2Zzzz2Zyyy",
  "2Zzzz4Zyyy1ZzzzcZyyy1Zzzz1Zyyy1Zzzz7Zyyy1Zzzz41Zyyy1Zzzz4Zyyy2Zzzz8Zyyy1Zzzz7Zyyy1Zzzz1cZyyy1Zzzz4Zyyy",
  "1Zzzz5Zyyy1Zzzz1Zyyy3Zzzz7Zyyy1Zzzz154Zyyy2Zzzz124Zyyy2Zzzz32Zyyy28cSgnwfZzzz5Sgnw1ZzzzfSgnw450Zzzz",
  "1fLatn6Zzzz6Latnd5Zzzz7Glag1Zzzz11Glag2Zzzz7Glag1Zzzz2Glag1Zzzz5Glag5Zzzz3eCyrl21Zzzz1Cyrl70Zzzz2dHmnp",
  "3ZzzzeHmnp2ZzzzaHmnp4Zzzz2Hmnp140Zzzz1fToto11Zzzz3aWcho5Zzzz1Wcho1d0Zzzz2aNagm2e6Zzzz7Ethi1Zzzz4Ethi",
  "1Zzzz2Ethi1ZzzzfEthi1Zzzzc5Mend2Zzzz10Mend29Zzzz4cAdlm4ZzzzaAdlm4Zzzz2Adlm311Zzzz44Zyyy4cZzzz3dZyyy",
  "c2Zzzz4Arab1Zzzz1bArab1Zzzz2Arab1Zzzz1Arab2Zzzz1Arab1ZzzzaArab1Zzzz4Arab1Zzzz1Arab1Zzzz1Arab6Zzzz1Arab",
  "4Zzzz1Arab1Zzzz1Arab1Zzzz1Arab1Zzzz3Arab1Zzzz2Arab1Zzzz1Arab2Zzzz1Arab1Zzzz1Arab1Zzzz1Arab1Zzzz1Arab",
  "1Zzzz1Arab1Zzzz2Arab1Zzzz1Arab2Zzzz4Arab1Zzzz7Arab1Zzzz4Arab1Zzzz4Arab1Zzzz1Arab1ZzzzaArab1Zzzz11Arab",
  "5Zzzz3Arab1Zzzz5Arab1Zzzz11Arab34Zzzz2Arab10eZzzz2cZyyy4Zzzz64ZyyycZzzzfZyyy2ZzzzfZyyy1ZzzzfZyyy1Zzzz",
  "25ZyyyaZzzzaeZyyy38Zzzz1aZyyy1Hira2ZyyydZzzz2cZyyy4Zzzz9Zyyy7Zzzz2ZyyyeZzzz6Zyyy9aZzzz3d8Zyyy4Zzzz11Zyyy",
  "3ZzzzdZyyy3Zzzz77Zyyy4Zzzz5fZyyy6ZzzzcZyyy4Zzzz1ZyyyfZzzzcZyyy4Zzzz38Zyyy8ZzzzaZyyy6Zzzz28Zyyy8Zzzz",
  "1eZyyy2Zzzz2Zyyy4eZzzz154ZyyycZzzzeZyyy2ZzzzdZyyy3Zzzz9Zyyy7Zzzz2eZyyy1Zzzz7Zyyy8ZzzzeZyyy4Zzzz9Zyyy",
  "7Zzzz9Zyyy7Zzzz93Zyyy1Zzzz37Zyyy25ZzzzaZyyy406Zzzza6e0Hani20Zzzz103aHani6ZzzzdeHani2Zzzz1682HanieZzzz",
  "1d31Hanic1fZzzz21eHani5e2Zzzz134bHani5Zzzz1060Haniadc51Zzzz1Zyyy1eZzzz60Zyyy80Zzzzf0Zinh2fe10Zzzz"]

/-- Names of scripts and their four letters. -/
def scriptNames : List String := [
  "Adlam=Adlm Ahom=Ahom Anatolian_Hieroglyphs=Hluw Arabic=Arab Armenian=Armn Avestan=Avst Balinese=Bali ",
  "Bamum=Bamu Bassa_Vah=Bass Batak=Batk Bengali=Beng Bhaiksuki=Bhks Bopomofo=Bopo Brahmi=Brah Braille=Brai ",
  "Buginese=Bugi Buhid=Buhd Canadian_Aboriginal=Cans Carian=Cari Caucasian_Albanian=Aghb Chakma=Cakm ",
  "Cham=Cham Cherokee=Cher Chorasmian=Chrs Common=Zyyy Coptic=Copt Qaac=Copt Cuneiform=Xsux Cypriot=Cprt ",
  "Cypro_Minoan=Cpmn Cyrillic=Cyrl Deseret=Dsrt Devanagari=Deva Dives_Akuru=Diak Dogra=Dogr Duployan=Dupl ",
  "Egyptian_Hieroglyphs=Egyp Elbasan=Elba Elymaic=Elym Ethiopic=Ethi Georgian=Geor Glagolitic=Glag ",
  "Gothic=Goth Grantha=Gran Greek=Grek Gujarati=Gujr Gunjala_Gondi=Gong Gurmukhi=Guru Han=Hani Hangul=Hang ",
  "Hanifi_Rohingya=Rohg Hanunoo=Hano Hatran=Hatr Hebrew=Hebr Hiragana=Hira Imperial_Aramaic=Armi ",
  "Inherited=Zinh Qaai=Zinh Inscriptional_Pahlavi=Phli Inscriptional_Parthian=Prti Javanese=Java ",
  "Kaithi=Kthi Kannada=Knda Katakana=Kana Kawi=Kawi Kayah_Li=Kali Kharoshthi=Khar Khitan_Small_Script=Kits ",
  "Khmer=Khmr Khojki=Khoj Khudawadi=Sind Lao=Laoo Latin=Latn Lepcha=Lepc Limbu=Limb Linear_A=Lina ",
  "Linear_B=Linb Lisu=Lisu Lycian=Lyci Lydian=Lydi Mahajani=Mahj Makasar=Maka Malayalam=Mlym Mandaic=Mand ",
  "Manichaean=Mani Marchen=Marc Masaram_Gondi=Gonm Medefaidrin=Medf Meetei_Mayek=Mtei Mende_Kikakui=Mend ",
  "Meroitic_Cursive=Merc Meroitic_Hieroglyphs=Mero Miao=Plrd Modi=Modi Mongolian=Mong Mro=Mroo ",
  "Multani=Mult Myanmar=Mymr Nabataean=Nbat Nag_Mundari=Nagm Nandinagari=Nand New_Tai_Lue=Talu Newa=Newa ",
  "Nko=Nkoo Nushu=Nshu Nyiakeng_Puachue_Hmong=Hmnp Ogham=Ogam Ol_Chiki=Olck Old_Hungarian=Hung ",
  "Old_Italic=Ital Old_North_Arabian=Narb Old_Permic=Perm Old_Persian=Xpeo Old_Sogdian=Sogo ",
  "Old_South_Arabian=Sarb Old_Turkic=Orkh Old_Uyghur=Ougr Oriya=Orya Osage=Osge Osmanya=Osma ",
  "Pahawh_Hmong=Hmng Palmyrene=Palm Pau_Cin_Hau=Pauc Phags_Pa=Phag Phoenician=Phnx Psalter_Pahlavi=Phlp ",
  "Rejang=Rjng Runic=Runr Samaritan=Samr Saurashtra=Saur Sharada=Shrd Shavian=Shaw Siddham=Sidd ",
  "SignWriting=Sgnw Sinhala=Sinh Sogdian=Sogd Sora_Sompeng=Sora Soyombo=Soyo Sundanese=Sund ",
  "Syloti_Nagri=Sylo Syriac=Syrc Tagalog=Tglg Tagbanwa=Tagb Tai_Le=Tale Tai_Tham=Lana Tai_Viet=Tavt ",
  "Takri=Takr Tamil=Taml Tangsa=Tnsa Tangut=Tang Telugu=Telu Thaana=Thaa Thai=Thai Tibetan=Tibt ",
  "Tifinagh=Tfng Tirhuta=Tirh Toto=Toto Ugaritic=Ugar Vai=Vaii Vithkuqi=Vith Wancho=Wcho Warang_Citi=Wara ",
  "Yezidi=Yezi Yi=Yiii Zanabazar_Square=Zanb "]

/-- The code points whose script passes a test, as the points at which membership changes. -/
def scriptChanges (test : String → Bool) : List Nat := labelChanges test (labelledRuns 4 scriptRuns)

end Graft.Unicode
