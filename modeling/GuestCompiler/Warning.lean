/-!
# Warnings

What a build passes over without failing.
-/
namespace GuestCompiler

inductive Warning
  | ignoredFirmwareVars (machine vars : String)
  | bootableFirmware (machine volume : String)
  | repeatedGlobal (driver property : String)
  deriving DecidableEq

namespace Warning

def message : Warning → String
  | ignoredFirmwareVars .. => "Ignoring firmware vars without firmware code"
  | bootableFirmware .. => "Firmware volumes are never bootable"
  | repeatedGlobal .. => "Ignoring repeated global property"

/-- What a warning is about, by name. -/
def subjects : Warning → List (String × String)
  | ignoredFirmwareVars machine vars => [("machine", machine), ("vars", vars)]
  | bootableFirmware machine volume => [("machine", machine), ("volume", volume)]
  | repeatedGlobal driver property => [("driver", driver), ("property", property)]

end Warning

end GuestCompiler
