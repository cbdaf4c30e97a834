/-!
# Processor brands

The maker of a processor, compared without regard to the case of ASCII letters.
-/
namespace GuestCompiler

def isBrand (brand name : String) : Bool :=
  brand.toList.map Char.toLower == name.toList.map Char.toLower

end GuestCompiler
