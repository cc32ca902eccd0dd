import InfraSmells.Text.CharSet

/-!
# Letter case

Each character has at most one lower-case and one upper-case partner; a text changes case
character by character, and a byte that cannot be read becomes U+FFFD in a changed text.
`equalFold` compares with an ASCII word: besides the two cases of a letter, the long s and the
Kelvin sign count as `s` and `k`.
-/

namespace InfraSmells.Text

/-- Case partners of the characters `lo`, `lo + step`, … , `hi`: each moves by `up - down`. -/
structure CaseRun where
  lo : Nat
  hi : Nat
  step : Nat
  up : Nat
  down : Nat

/-- Reads `lo:±d`, `lo-hi:±d` (every character) or `lo~hi:±d` (every second one). -/
def CaseRun.parse (cs : List Char) : CaseRun :=
  let (range, move) := (cutAt [':'] cs).getD (cs, [])
  let (up, down) :=
    match move with
    | '+' :: d => (hexValue d, 0)
    | '-' :: d => (0, hexValue d)
    | _ => (0, 0)
  match cutAt ['~'] range with
  | some (lo, hi) => ⟨hexValue lo, hexValue hi, 2, up, down⟩
  | none => ⟨(parseRange range).1, (parseRange range).2, 1, up, down⟩

/-- The runs of a case table, in increasing order. -/
structure CaseTable where
  keys : Array (Nat × Nat)
  runs : Array CaseRun

/-- Reads runs separated by blanks and newlines. -/
def CaseTable.ofText (s : String) : CaseTable :=
  let runs := (words s.toList).map CaseRun.parse
  { keys := (runs.map fun r => (r.lo, r.hi)).toArray, runs := runs.toArray }

/-- The partner of a character, or the character itself. -/
def CaseTable.map (t : CaseTable) (c : Char) : Char :=
  match (CharSet.find t.keys c.toNat 32 0 t.keys.size).bind (t.runs[·]?) with
  | some r =>
    if (c.toNat - r.lo) % r.step = 0 then Char.ofNat (c.toNat + r.up - r.down) else c
  | none => c

/-- The characters that have a lower-case partner. -/
def lowerTable : CaseTable := .ofText
  "41-5A:+20 C0-D6:+20 D8-DE:+20 100~12E:+1 130:-C7 132~136:+1 139~147:+1 14A~176:+1 178:-79
   179~17D:+1 181:+D2 182~184:+1 186:+CE 187:+1 189-18A:+CD 18B:+1 18E:+4F 18F:+CA 190:+CB
   191:+1 193:+CD 194:+CF 196:+D3 197:+D1 198:+1 19C:+D3 19D:+D5 19F:+D6 1A0~1A4:+1 1A6:+DA
   1A7:+1 1A9:+DA 1AC:+1 1AE:+DA 1AF:+1 1B1-1B2:+D9 1B3~1B5:+1 1B7:+DB 1B8:+1 1BC:+1 1C4:+2
   1C5:+1 1C7:+2 1C8:+1 1CA:+2 1CB~1DB:+1 1DE~1EE:+1 1F1:+2 1F2~1F4:+1 1F6:-61 1F7:-38
   1F8~21E:+1 220:-82 222~232:+1 23A:+2A2B 23B:+1 23D:-A3 23E:+2A28 241:+1 243:-C3 244:+45
   245:+47 246~24E:+1 370~372:+1 376:+1 37F:+74 386:+26 388-38A:+25 38C:+40 38E-38F:+3F
   391-3A1:+20 3A3-3AB:+20 3CF:+8 3D8~3EE:+1 3F4:-3C 3F7:+1 3F9:-7 3FA:+1 3FD-3FF:-82
   400-40F:+50 410-42F:+20 460~480:+1 48A~4BE:+1 4C0:+F 4C1~4CD:+1 4D0~52E:+1 531-556:+30
   10A0-10C5:+1C60 10C7:+1C60 10CD:+1C60 13A0-13EF:+97D0 13F0-13F5:+8 1C90-1CBA:-BC0
   1CBD-1CBF:-BC0 1E00~1E94:+1 1E9E:-1DBF 1EA0~1EFE:+1 1F08-1F0F:-8 1F18-1F1D:-8 1F28-1F2F:-8
   1F38-1F3F:-8 1F48-1F4D:-8 1F59~1F5F:-8 1F68-1F6F:-8 1F88-1F8F:-8 1F98-1F9F:-8 1FA8-1FAF:-8
   1FB8-1FB9:-8 1FBA-1FBB:-4A 1FBC:-9 1FC8-1FCB:-56 1FCC:-9 1FD8-1FD9:-8 1FDA-1FDB:-64
   1FE8-1FE9:-8 1FEA-1FEB:-70 1FEC:-7 1FF8-1FF9:-80 1FFA-1FFB:-7E 1FFC:-9 2126:-1D5D
   212A:-20BF 212B:-2046 2132:+1C 2160-216F:+10 2183:+1 24B6-24CF:+1A 2C00-2C2F:+30 2C60:+1
   2C62:-29F7 2C63:-EE6 2C64:-29E7 2C67~2C6B:+1 2C6D:-2A1C 2C6E:-29FD 2C6F:-2A1F 2C70:-2A1E
   2C72:+1 2C75:+1 2C7E-2C7F:-2A3F 2C80~2CE2:+1 2CEB~2CED:+1 2CF2:+1 A640~A66C:+1 A680~A69A:+1
   A722~A72E:+1 A732~A76E:+1 A779~A77B:+1 A77D:-8A04 A77E~A786:+1 A78B:+1 A78D:-A528
   A790~A792:+1 A796~A7A8:+1 A7AA:-A544 A7AB:-A54F A7AC:-A54B A7AD:-A541 A7AE:-A544 A7B0:-A512
   A7B1:-A52A A7B2:-A515 A7B3:+3A0 A7B4~A7C2:+1 A7C4:-30 A7C5:-A543 A7C6:-8A38 A7C7~A7C9:+1
   A7D0:+1 A7D6~A7D8:+1 A7F5:+1 FF21-FF3A:+20 10400-10427:+28 104B0-104D3:+28 10570-1057A:+27
   1057C-1058A:+27 1058C-10592:+27 10594-10595:+27 10C80-10CB2:+40 118A0-118BF:+20
   16E40-16E5F:+20 1E900-1E921:+22"

/-- The characters that have an upper-case partner. -/
def upperTable : CaseTable := .ofText
  "61-7A:-20 B5:+2E7 E0-F6:-20 F8-FE:-20 FF:+79 101~12F:-1 131:-E8 133~137:-1 13A~148:-1
   14B~177:-1 17A~17E:-1 17F:-12C 180:+C3 183~185:-1 188:-1 18C:-1 192:-1 195:+61 199:-1
   19A:+A3 19E:+82 1A1~1A5:-1 1A8:-1 1AD:-1 1B0:-1 1B4~1B6:-1 1B9:-1 1BD:-1 1BF:+38 1C5:-1
   1C6:-2 1C8:-1 1C9:-2 1CB:-1 1CC:-2 1CE~1DC:-1 1DD:-4F 1DF~1EF:-1 1F2:-1 1F3:-2 1F5:-1
   1F9~21F:-1 223~233:-1 23C:-1 23F-240:+2A3F 242:-1 247~24F:-1 250:+2A1F 251:+2A1C 252:+2A1E
   253:-D2 254:-CE 256-257:-CD 259:-CA 25B:-CB 25C:+A54F 260:-CD 261:+A54B 263:-CF 265:+A528
   266:+A544 268:-D1 269:-D3 26A:+A544 26B:+29F7 26C:+A541 26F:-D3 271:+29FD 272:-D5 275:-D6
   27D:+29E7 280:-DA 282:+A543 283:-DA 287:+A52A 288:-DA 289:-45 28A-28B:-D9 28C:-47 292:-DB
   29D:+A515 29E:+A512 345:+54 371~373:-1 377:-1 37B-37D:+82 3AC:-26 3AD-3AF:-25 3B1-3C1:-20
   3C2:-1F 3C3-3CB:-20 3CC:-40 3CD-3CE:-3F 3D0:-3E 3D1:-39 3D5:-2F 3D6:-36 3D7:-8 3D9~3EF:-1
   3F0:-56 3F1:-50 3F2:+7 3F3:-74 3F5:-60 3F8:-1 3FB:-1 430-44F:-20 450-45F:-50 461~481:-1
   48B~4BF:-1 4C2~4CE:-1 4CF:-F 4D1~52F:-1 561-586:-30 10D0-10FA:+BC0 10FD-10FF:+BC0
   13F8-13FD:-8 1C80:-186E 1C81:-186D 1C82:-1864 1C83-1C84:-1862 1C85:-1863 1C86:-185C
   1C87:-1825 1C88:+89C2 1D79:+8A04 1D7D:+EE6 1D8E:+8A38 1E01~1E95:-1 1E9B:-3B 1EA1~1EFF:-1
   1F00-1F07:+8 1F10-1F15:+8 1F20-1F27:+8 1F30-1F37:+8 1F40-1F45:+8 1F51~1F57:+8 1F60-1F67:+8
   1F70-1F71:+4A 1F72-1F75:+56 1F76-1F77:+64 1F78-1F79:+80 1F7A-1F7B:+70 1F7C-1F7D:+7E
   1F80-1F87:+8 1F90-1F97:+8 1FA0-1FA7:+8 1FB0-1FB1:+8 1FB3:+9 1FBE:-1C25 1FC3:+9 1FD0-1FD1:+8
   1FE0-1FE1:+8 1FE5:+7 1FF3:+9 214E:-1C 2170-217F:-10 2184:-1 24D0-24E9:-1A 2C30-2C5F:-30
   2C61:-1 2C65:-2A2B 2C66:-2A28 2C68~2C6C:-1 2C73:-1 2C76:-1 2C81~2CE3:-1 2CEC~2CEE:-1
   2CF3:-1 2D00-2D25:-1C60 2D27:-1C60 2D2D:-1C60 A641~A66D:-1 A681~A69B:-1 A723~A72F:-1
   A733~A76F:-1 A77A~A77C:-1 A77F~A787:-1 A78C:-1 A791~A793:-1 A794:+30 A797~A7A9:-1
   A7B5~A7C3:-1 A7C8~A7CA:-1 A7D1:-1 A7D7~A7D9:-1 A7F6:-1 AB53:-3A0 AB70-ABBF:-97D0
   FF41-FF5A:-20 10428-1044F:-28 104D8-104FB:-28 10597-105A1:-27 105A3-105B1:-27
   105B3-105B9:-27 105BB-105BC:-27 10CC0-10CF2:-40 118C0-118DF:-20 16E60-16E7F:-20
   1E922-1E943:-22"

/-- The lower-case partner of a character. -/
def lowerChar (c : Char) : Char :=
  if c.toNat < 0x80 then (if 'A' ≤ c && c ≤ 'Z' then Char.ofNat (c.toNat + 32) else c)
  else lowerTable.map c

/-- The upper-case partner of a character. -/
def upperChar (c : Char) : Char :=
  if c.toNat < 0x80 then (if 'a' ≤ c && c ≤ 'z' then Char.ofNat (c.toNat - 32) else c)
  else upperTable.map c

/-- The text in lower case. -/
def lower (s : String) : String :=
  ofCharacters ((characters s).map lowerChar)

/-- The text in upper case. -/
def upper (s : String) : String :=
  ofCharacters ((characters s).map upperChar)

/-- The character an ASCII letter, the long s and the Kelvin sign stand for when case is ignored. -/
def foldChar (c : Char) : Char :=
  if 'A' ≤ c && c ≤ 'Z' then Char.ofNat (c.toNat + 32)
  else if c = Char.ofNat 0x17F then 's'
  else if c = Char.ofNat 0x212A then 'k'
  else c

/-- Do the text and an ASCII word agree when case is ignored? -/
def equalFold (s word : String) : Bool :=
  s.toList.map foldChar == word.toList.map foldChar

end InfraSmells.Text
