import ConfidentialPolicy.Character.Category
import ConfidentialPolicy.Character.Script
import ConfidentialPolicy.Text.Blank

namespace ConfidentialPolicy

namespace CharSet

def otherAlphabetic : CharSet := .ofLines [
  "345 363-36F 5B0-5BD 5BF 5C1-5C2 5C4-5C5 5C7 610-61A 64B-657 659-65F 670 6D6-6DC 6E1-6E4",
  "6E7-6E8 6ED 711 730-73F 7A6-7B0 816-817 81B-823 825-827 829-82C 897 8D4-8DF 8E3-8E9 8F0-903",
  "93A-93B 93E-94C 94E-94F 955-957 962-963 981-983 9BE-9C4 9C7-9C8 9CB-9CC 9D7 9E2-9E3 A01-A03",
  "A3E-A42 A47-A48 A4B-A4C A51 A70-A71 A75 A81-A83 ABE-AC5 AC7-AC9 ACB-ACC AE2-AE3 AFA-AFC",
  "B01-B03 B3E-B44 B47-B48 B4B-B4C B56-B57 B62-B63 B82 BBE-BC2 BC6-BC8 BCA-BCC BD7 C00-C04",
  "C3E-C44 C46-C48 C4A-C4C C55-C56 C62-C63 C81-C83 CBE-CC4 CC6-CC8 CCA-CCC CD5-CD6 CE2-CE3 CF3",
  "D00-D03 D3E-D44 D46-D48 D4A-D4C D57 D62-D63 D81-D83 DCF-DD4 DD6 DD8-DDF DF2-DF3 E31 E34-E3A",
  "E4D EB1 EB4-EB9 EBB-EBC ECD F71-F83 F8D-F97 F99-FBC 102B-1036 1038 103B-103E 1056-1059",
  "105E-1060 1062-1064 1067-106D 1071-1074 1082-108D 108F 109A-109D 1712-1713 1732-1733",
  "1752-1753 1772-1773 17B6-17C8 1885-1886 18A9 1920-192B 1930-1938 1A17-1A1B 1A55-1A5E",
  "1A61-1A74 1ABF-1AC0 1ACC-1ACE 1B00-1B04 1B35-1B43 1B80-1B82 1BA1-1BA9 1BAC-1BAD 1BE7-1BF1",
  "1C24-1C36 1DD3-1DF4 24B6-24E9 2DE0-2DFF A674-A67B A69E-A69F A802 A80B A823-A827 A880-A881",
  "A8B4-A8C3 A8C5 A8FF A926-A92A A947-A952 A980-A983 A9B4-A9BF A9E5 AA29-AA36 AA43 AA4C-AA4D",
  "AA7B-AA7D AAB0 AAB2-AAB4 AAB7-AAB8 AABE AAEB-AAEF AAF5 ABE3-ABEA FB1E 10376-1037A",
  "10A01-10A03 10A05-10A06 10A0C-10A0F 10D24-10D27 10D69 10EAB-10EAC 10EFC 11000-11002",
  "11038-11045 11073-11074 11080-11082 110B0-110B8 110C2 11100-11102 11127-11132 11145-11146",
  "11180-11182 111B3-111BF 111CE-111CF 1122C-11234 11237 1123E 11241 112DF-112E8 11300-11303",
  "1133E-11344 11347-11348 1134B-1134C 11357 11362-11363 113B8-113C0 113C2 113C5 113C7-113CA",
  "113CC-113CD 11435-11441 11443-11445 114B0-114C1 115AF-115B5 115B8-115BE 115DC-115DD",
  "11630-1163E 11640 116AB-116B5 1171D-1172A 1182C-11838 11930-11935 11937-11938 1193B-1193C",
  "11940 11942 119D1-119D7 119DA-119DF 119E4 11A01-11A0A 11A35-11A39 11A3B-11A3E 11A51-11A5B",
  "11A8A-11A97 11C2F-11C36 11C38-11C3E 11C92-11CA7 11CA9-11CB6 11D31-11D36 11D3A 11D3C-11D3D",
  "11D3F-11D41 11D43 11D47 11D8A-11D8E 11D90-11D91 11D93-11D96 11EF3-11EF6 11F00-11F01 11F03",
  "11F34-11F3A 11F3E-11F40 1611E-1612E 16F4F 16F51-16F87 16F8F-16F92 16FF0-16FF1 1BC9E",
  "1E000-1E006 1E008-1E018 1E01B-1E021 1E023-1E024 1E026-1E02A 1E08F 1E947 1F130-1F149",
  "1F150-1F169 1F170-1F189"]

def alphabetic : CharSet := (Category.letter.union Category.letterNumber).union otherAlphabetic

def lowercase : CharSet := Category.lowercaseLetter.union <| .ofLines [
  "AA BA 2B0-2B8 2C0-2C1 2E0-2E4 345 37A 10FC 1D2C-1D6A 1D78 1D9B-1DBF 2071 207F 2090-209C",
  "2170-217F 24D0-24E9 2C7C-2C7D A69C-A69D A770 A7F2-A7F4 A7F8-A7F9 AB5C-AB5F AB69 10780",
  "10783-10785 10787-107B0 107B2-107BA 1E030-1E06D"]

def uppercase : CharSet := Category.uppercaseLetter.union <| .ofLines [
  "2160-216F 24B6-24CF 1F130-1F149 1F150-1F169 1F170-1F189"]

def cased : CharSet := (lowercase.union uppercase).union Category.titlecaseLetter

def joinControl : CharSet := .range 0x200C 0x200D

def word : CharSet :=
  Category.unionOf [alphabetic, Category.mark, Category.decimalNumber,
    Category.connectorPunctuation, joinControl]

def blank : CharSet := .ofPairs Text.blankRanges

def idStart : CharSet :=
  ((Category.letter.union Category.letterNumber).union
    (.ofLines ["1885-1886 2118 212E 309B-309C"])).diff (.one '\u2e2f')

def idContinue : CharSet :=
  Category.unionOf [idStart, Category.nonspacingMark, Category.spacingMark, Category.decimalNumber,
    Category.connectorPunctuation, .ofLines ["B7 387 1369-1371 19DA 200C-200D 30FB FF65"]]

def unstable : CharSet := .ofLines ["37A 309B-309C FC5E-FC63 FDFA-FDFB FE70-FE7E/2"]

def xidStart : CharSet := idStart.diff (unstable.union (.ofLines ["E33 EB3 FF9E-FF9F"]))

def xidContinue : CharSet := idContinue.diff unstable

def dash : CharSet := .ofLines [
  "2D 58A 5BE 1400 1806 2010-2015 2053 207B 208B 2212 2E17 2E1A 2E3A-2E3B 2E40 2E5D 301C 3030",
  "30A0 FE31-FE32 FE58 FE63 FF0D 10D6E 10EAD"]

def ideographic : CharSet := .ofLines [
  "3006-3007 3021-3029 3038-303A 3400-4DBF 4E00-9FFF F900-FA6D FA70-FAD9 16FE4 17000-187F7",
  "18800-18CD5 18CFF-18D08 1B170-1B2FB 20000-2A6DF 2A700-2B739 2B740-2B81D 2B820-2CEA1",
  "2CEB0-2EBE0 2EBF0-2EE5D 2F800-2FA1D 30000-3134A 31350-323AF"]

def emoji : CharSet := .ofLines [
  "23 2A 30-39 A9 AE 203C 2049 2122 2139 2194-2199 21A9-21AA 231A-231B 2328 23CF 23E9-23F3",
  "23F8-23FA 24C2 25AA-25AB 25B6 25C0 25FB-25FE 2600-2604 260E 2611 2614-2615 2618 261D 2620",
  "2622-2623 2626 262A 262E-262F 2638-263A 2640 2642 2648-2653 265F-2660 2663 2665-2666 2668",
  "267B 267E-267F 2692-2697 2699 269B-269C 26A0-26A1 26A7 26AA-26AB 26B0-26B1 26BD-26BE",
  "26C4-26C5 26C8 26CE-26CF 26D1 26D3-26D4 26E9-26EA 26F0-26F5 26F7-26FA 26FD 2702 2705",
  "2708-270D 270F 2712-2716/2 271D 2721 2728 2733-2734 2744 2747 274C 274E 2753-2755 2757",
  "2763-2764 2795-2797 27A1 27B0 27BF 2934-2935 2B05-2B07 2B1B-2B1C 2B50 2B55 3030 303D 3297",
  "3299 1F004 1F0CF 1F170-1F171 1F17E-1F17F 1F18E 1F191-1F19A 1F1E6-1F1FF 1F201-1F202 1F21A",
  "1F22F 1F232-1F23A 1F250-1F251 1F300-1F321 1F324-1F393 1F396-1F397 1F399-1F39B 1F39E-1F3F0",
  "1F3F3-1F3F5 1F3F7-1F4FD 1F4FF-1F53D 1F549-1F54E 1F550-1F567 1F56F-1F570 1F573-1F57A 1F587",
  "1F58A-1F58D 1F590 1F595-1F596 1F5A4-1F5A5 1F5A8 1F5B1-1F5B2 1F5BC 1F5C2-1F5C4 1F5D1-1F5D3",
  "1F5DC-1F5DE 1F5E1 1F5E3 1F5E8 1F5EF 1F5F3 1F5FA-1F64F 1F680-1F6C5 1F6CB-1F6D2 1F6D5-1F6D7",
  "1F6DC-1F6E5 1F6E9 1F6EB-1F6EC 1F6F0 1F6F3-1F6FC 1F7E0-1F7EB 1F7F0 1F90C-1F93A 1F93C-1F945",
  "1F947-1F9FF 1FA70-1FA7C 1FA80-1FA89 1FA8F-1FAC6 1FACE-1FADC 1FADF-1FAE9 1FAF0-1FAF8"]

def ascii : CharSet := .range 0 0x7F

abbrev Named := List String × CharSet

def binaryProperties : List Named := [
  (["alphabetic", "alpha"], alphabetic),
  (["lowercase", "lower"], lowercase),
  (["uppercase", "upper"], uppercase),
  (["cased"], cased),
  (["whitespace", "wspace", "space"], blank),
  (["asciihexdigit", "ahex"], .ofLines ["30-39 41-46 61-66"]),
  (["hexdigit", "hex"], .ofLines ["30-39 41-46 61-66 FF10-FF19 FF21-FF26 FF41-FF46"]),
  (["dash"], dash),
  (["ideographic", "ideo"], ideographic),
  (["joincontrol", "joinc"], joinControl),
  (["emoji"], emoji),
  (["idstart", "ids"], idStart),
  (["idcontinue", "idc"], idContinue),
  (["xidstart", "xids"], xidStart),
  (["xidcontinue", "xidc"], xidContinue)]

def categories : List Named := [
  (["any"], all),
  (["assigned"], Category.assigned),
  (["ascii"], ascii),
  (["l", "letter"], Category.letter),
  (["lc", "casedletter"], Category.casedLetter),
  (["lu", "uppercaseletter"], Category.uppercaseLetter),
  (["ll", "lowercaseletter"], Category.lowercaseLetter),
  (["lt", "titlecaseletter"], Category.titlecaseLetter),
  (["lm", "modifierletter"], Category.modifierLetter),
  (["lo", "otherletter"], Category.otherLetter),
  (["m", "mark", "combiningmark"], Category.mark),
  (["mn", "nonspacingmark"], Category.nonspacingMark),
  (["mc", "spacingmark"], Category.spacingMark),
  (["me", "enclosingmark"], Category.enclosingMark),
  (["n", "number"], Category.number),
  (["nd", "decimalnumber", "digit"], Category.decimalNumber),
  (["nl", "letternumber"], Category.letterNumber),
  (["no", "othernumber"], Category.otherNumber),
  (["p", "punctuation", "punct"], Category.punctuation),
  (["pc", "connectorpunctuation"], Category.connectorPunctuation),
  (["pd", "dashpunctuation"], Category.dashPunctuation),
  (["ps", "openpunctuation"], Category.openPunctuation),
  (["pe", "closepunctuation"], Category.closePunctuation),
  (["pi", "initialpunctuation"], Category.initialPunctuation),
  (["pf", "finalpunctuation"], Category.finalPunctuation),
  (["po", "otherpunctuation"], Category.otherPunctuation),
  (["s", "symbol"], Category.symbol),
  (["sm", "mathsymbol"], Category.mathSymbol),
  (["sc", "currencysymbol"], Category.currencySymbol),
  (["sk", "modifiersymbol"], Category.modifierSymbol),
  (["so", "othersymbol"], Category.otherSymbol),
  (["z", "separator"], Category.separator),
  (["zs", "spaceseparator"], Category.spaceSeparator),
  (["zl", "lineseparator"], Category.lineSeparator),
  (["zp", "paragraphseparator"], Category.paragraphSeparator),
  (["c", "other"], Category.other),
  (["cc", "control", "cntrl"], Category.control),
  (["cf", "format"], Category.format),
  (["co", "privateuse"], Category.privateUse),
  (["cn", "unassigned"], Category.unassigned)]

def named? (name : String) (sets : List Named) : Option CharSet :=
  (sets.find? (name ∈ ·.1)).map (·.2)

/-- A name in lower case, without blanks, hyphens, underscores, characters that are not ASCII and a
leading `is`. The name `isc` is none of a category and stays. -/
def plainName (name : List Char) : String :=
  let lower := name.map Char.toLower
  let body := match lower with
    | 'i' :: 's' :: rest => rest
    | _ => lower
  let plain := body.filter fun c ↦ c.toNat < 0x80 && !(c = ' ' || c = '-' || c = '_')
  if plain = ['c'] ∧ body.length < lower.length then "isc" else String.ofList plain

def ofPropertyName? (name : List Char) : Option CharSet :=
  let n := plainName name
  (named? n binaryProperties).or ((named? n categories).or (Script.ofName? n))

def ofPropertyValue? (property value : List Char) : Option CharSet :=
  match plainName property with
  | "gc" | "generalcategory" => named? (plainName value) categories
  | "sc" | "script" => Script.ofName? (plainName value)
  | _ => none

end CharSet

def isWordChar (c : Char) : Bool :=
  if c.toNat < 0x80 then c.isAlphanum || c == '_' else CharSet.word.contains c

def isAsciiWordChar (c : Char) : Bool := c.isAlphanum || c == '_'

end ConfidentialPolicy
