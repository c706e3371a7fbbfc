import RouterConfig.Unicode.CodeSet

/-!
# RouterConfig — case folding

Two characters differ only in case if simple case folding takes them to the same character.
-/

namespace RouterConfig.Unicode

/-- Characters that case folding takes the same distance. -/
structure Folding where
  sources : CodeSet
  distance : Int

/-- Every character that case folding takes to another one. -/
def foldings : List Folding :=
  [⟨.ofTable
      "41-5A C0-D6 D8-DE 391-3A1 3A3-3AB 410-42F FF21-FF3A 10D50-10D65 118A0-118BF 16E40-16E5F",
    32⟩,
   ⟨.ofTable "B5", 775⟩,
   ⟨.ofTable
      "100-12E/2 132-136/2 139-147/2 14A-176/2 179-17D/2 182 184 187 18B 191 198 1A0-1A4/2 1A7
      1AC 1AF 1B3 1B5 1B8 1BC 1C5 1C8 1CB-1DB/2 1DE-1EE/2 1F2 1F4 1F8-21E/2 222-232/2 23B 241
      246-24E/2 370 372 376 3C2 3D8-3EE/2 3F7 3FA 460-480/2 48A-4BE/2 4C1-4CD/2 4D0-52E/2 1C89
      1E00-1E94/2 1EA0-1EFE/2 2183 2C60 2C67-2C6B/2 2C72 2C75 2C80-2CE2/2 2CEB 2CED 2CF2
      A640-A66C/2 A680-A69A/2 A722-A72E/2 A732-A76E/2 A779 A77B A77E-A786/2 A78B A790 A792
      A796-A7A8/2 A7B4-A7C2/2 A7C7 A7C9 A7CC A7D0 A7D6-A7DA/2 A7F5 FB05",
    1⟩,
   ⟨.ofTable "178", -121⟩,
   ⟨.ofTable "17F", -268⟩,
   ⟨.ofTable "181", 210⟩,
   ⟨.ofTable "186", 206⟩,
   ⟨.ofTable "189-18A 193", 205⟩,
   ⟨.ofTable "18E", 79⟩,
   ⟨.ofTable "18F", 202⟩,
   ⟨.ofTable "190", 203⟩,
   ⟨.ofTable "194", 207⟩,
   ⟨.ofTable "196 19C", 211⟩,
   ⟨.ofTable "197", 209⟩,
   ⟨.ofTable "19D", 213⟩,
   ⟨.ofTable "19F", 214⟩,
   ⟨.ofTable "1A6 1A9 1AE", 218⟩,
   ⟨.ofTable "1B1-1B2", 217⟩,
   ⟨.ofTable "1B7", 219⟩,
   ⟨.ofTable "1C4 1C7 1CA 1F1", 2⟩,
   ⟨.ofTable "1F6", -97⟩,
   ⟨.ofTable "1F7", -56⟩,
   ⟨.ofTable "220 3FD-3FF", -130⟩,
   ⟨.ofTable "23A", 10795⟩,
   ⟨.ofTable "23D", -163⟩,
   ⟨.ofTable "23E", 10792⟩,
   ⟨.ofTable "243", -195⟩,
   ⟨.ofTable "244", 69⟩,
   ⟨.ofTable "245", 71⟩,
   ⟨.ofTable "345 37F", 116⟩,
   ⟨.ofTable "386", 38⟩,
   ⟨.ofTable "388-38A", 37⟩,
   ⟨.ofTable "38C 10C80-10CB2", 64⟩,
   ⟨.ofTable "38E-38F", 63⟩,
   ⟨.ofTable "3CF", 8⟩,
   ⟨.ofTable "3D0", -30⟩,
   ⟨.ofTable "3D1", -25⟩,
   ⟨.ofTable "3D5", -15⟩,
   ⟨.ofTable "3D6", -22⟩,
   ⟨.ofTable "3F0", -54⟩,
   ⟨.ofTable "3F1 A7C4", -48⟩,
   ⟨.ofTable "3F4", -60⟩,
   ⟨.ofTable "3F5", -64⟩,
   ⟨.ofTable "3F9 1FEC", -7⟩,
   ⟨.ofTable "400-40F", 80⟩,
   ⟨.ofTable "4C0", 15⟩,
   ⟨.ofTable "531-556 2C00-2C2F", 48⟩,
   ⟨.ofTable "10A0-10C5 10C7 10CD", 7264⟩,
   ⟨.ofTable
      "13F8-13FD 1F08-1F0F 1F18-1F1D 1F28-1F2F 1F38-1F3F 1F48-1F4D 1F59-1F5F/2 1F68-1F6F
      1F88-1F8F 1F98-1F9F 1FA8-1FAF 1FB8-1FB9 1FD8-1FD9 1FE8-1FE9",
    -8⟩,
   ⟨.ofTable "1C80", -6222⟩,
   ⟨.ofTable "1C81", -6221⟩,
   ⟨.ofTable "1C82", -6212⟩,
   ⟨.ofTable "1C83-1C84", -6210⟩,
   ⟨.ofTable "1C85", -6211⟩,
   ⟨.ofTable "1C86", -6204⟩,
   ⟨.ofTable "1C87", -6180⟩,
   ⟨.ofTable "1C88", 35267⟩,
   ⟨.ofTable "1C90-1CBA 1CBD-1CBF", -3008⟩,
   ⟨.ofTable "1E9B", -58⟩,
   ⟨.ofTable "1E9E", -7615⟩,
   ⟨.ofTable "1FBA-1FBB", -74⟩,
   ⟨.ofTable "1FBC 1FCC 1FFC", -9⟩,
   ⟨.ofTable "1FBE", -7173⟩,
   ⟨.ofTable "1FC8-1FCB", -86⟩,
   ⟨.ofTable "1FD3", -7235⟩,
   ⟨.ofTable "1FDA-1FDB", -100⟩,
   ⟨.ofTable "1FE3", -7219⟩,
   ⟨.ofTable "1FEA-1FEB", -112⟩,
   ⟨.ofTable "1FF8-1FF9", -128⟩,
   ⟨.ofTable "1FFA-1FFB", -126⟩,
   ⟨.ofTable "2126", -7517⟩,
   ⟨.ofTable "212A", -8383⟩,
   ⟨.ofTable "212B", -8262⟩,
   ⟨.ofTable "2132", 28⟩,
   ⟨.ofTable "2160-216F", 16⟩,
   ⟨.ofTable "24B6-24CF", 26⟩,
   ⟨.ofTable "2C62", -10743⟩,
   ⟨.ofTable "2C63", -3814⟩,
   ⟨.ofTable "2C64", -10727⟩,
   ⟨.ofTable "2C6D", -10780⟩,
   ⟨.ofTable "2C6E", -10749⟩,
   ⟨.ofTable "2C6F", -10783⟩,
   ⟨.ofTable "2C70", -10782⟩,
   ⟨.ofTable "2C7E-2C7F", -10815⟩,
   ⟨.ofTable "A77D", -35332⟩,
   ⟨.ofTable "A78D", -42280⟩,
   ⟨.ofTable "A7AA A7AE", -42308⟩,
   ⟨.ofTable "A7AB", -42319⟩,
   ⟨.ofTable "A7AC", -42315⟩,
   ⟨.ofTable "A7AD", -42305⟩,
   ⟨.ofTable "A7B0", -42258⟩,
   ⟨.ofTable "A7B1", -42282⟩,
   ⟨.ofTable "A7B2", -42261⟩,
   ⟨.ofTable "A7B3", 928⟩,
   ⟨.ofTable "A7C5", -42307⟩,
   ⟨.ofTable "A7C6", -35384⟩,
   ⟨.ofTable "A7CB", -42343⟩,
   ⟨.ofTable "A7DC", -42561⟩,
   ⟨.ofTable "AB70-ABBF", -38864⟩,
   ⟨.ofTable "10400-10427 104B0-104D3", 40⟩,
   ⟨.ofTable "10570-1057A 1057C-1058A 1058C-10592 10594-10595", 39⟩,
   ⟨.ofTable "1E900-1E921", 34⟩]

/-- The set with every code point moved by `distance`. -/
def CodeSet.shift (s : CodeSet) (distance : Int) : CodeSet :=
  ⟨s.edges.map fun (edge : Nat) => ((edge : Int) + distance).toNat⟩

/-- What case folding makes of the characters in `s` that it moves. -/
def Folding.image (f : Folding) (s : CodeSet) : CodeSet := (s ∩ f.sources).shift f.distance

/-- The characters that case folding takes into `s`. -/
def Folding.preimage (f : Folding) (s : CodeSet) : CodeSet :=
  s.shift (-f.distance) ∩ f.sources

/-- The set with every character that differs only in case from one in it. -/
def CodeSet.foldCase (s : CodeSet) : CodeSet :=
  let folded := s ∪ .unionOf (foldings.map fun f => f.image s)
  folded ∪ .unionOf (foldings.map fun f => f.preimage folded)

/-- The set with the letter of the other case for every ASCII letter in it. -/
def CodeSet.foldAsciiCase (s : CodeSet) : CodeSet :=
  .unionOf [s, (s ∩ .range 0x41 0x5A).shift 32, (s ∩ .range 0x61 0x7A).shift (-32)]

end RouterConfig.Unicode
