import Mathlib.Init

/-! # Error codes of ESP-IDF (`esp_err_t`) -/

namespace EspGnss

abbrev EspErr := Int

def espOk : EspErr := 0
def espFail : EspErr := -1
def espErrInvalidArg : EspErr := 0x102
def espErrInvalidState : EspErr := 0x103
def espErrNotFinished : EspErr := 0x10C

end EspGnss
