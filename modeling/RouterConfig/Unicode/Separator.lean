import RouterConfig.Unicode.CodeSet

/-!
# RouterConfig — Unicode separators and controls

The general categories of separators, controls and private characters.
-/

namespace RouterConfig.Unicode

/-- General category Zs. -/
def spaceSeparator : CodeSet := .ofTable "20 A0 1680 2000-200A 202F 205F 3000"

/-- General category Zl. -/
def lineSeparator : CodeSet := .ofTable "2028"

/-- General category Zp. -/
def paragraphSeparator : CodeSet := .ofTable "2029"

/-- General category Cc. -/
def control : CodeSet := .ofTable "0-1F 7F-9F"

/-- General category Cf. -/
def format : CodeSet :=
  .ofTable
    "AD 600-605 61C 6DD 70F 890-891 8E2 180E 200B-200F 202A-202E 2060-2064 2066-206F FEFF
    FFF9-FFFB 110BD 110CD 13430-1343F 1BCA0-1BCA3 1D173-1D17A E0001 E0020-E007F"

/-- General category Co. -/
def privateUse : CodeSet := .ofTable "E000-F8FF F0000-FFFFD 100000-10FFFD"

end RouterConfig.Unicode
