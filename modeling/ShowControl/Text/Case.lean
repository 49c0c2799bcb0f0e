/-! Letter case as far as a comparison with an ASCII word can see it. -/

set_option autoImplicit false
namespace ShowControl.Text

/-- The lower case of a character. Beyond the ASCII letters only the Kelvin sign has an ASCII letter
as its lower case; every other character stands for itself. -/
def lowerChar (c : Char) : Char := if c.toNat == 0x212a then 'k' else c.toLower

/-- The upper case of a character. Beyond the ASCII letters only the dotless i and the long s have
an ASCII letter as their upper case. -/
def upperChar (c : Char) : Char :=
  if c.toNat == 0x131 then 'I' else if c.toNat == 0x17f then 'S' else c.toUpper

def lower (s : String) : String := String.ofList (s.toList.map lowerChar)

def upper (s : String) : String := String.ofList (s.toList.map upperChar)

end ShowControl.Text
