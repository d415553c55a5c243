/-! # `esp_err_t` — the error codes that the modelled code compares with -/

/-- `esp_err_t`, a signed integer in which 0 is success. -/
abbrev EspErr := Int

namespace EspErr

def espOk : EspErr := 0
def espFail : EspErr := -1
def espErrNoMem : EspErr := 0x101
def espErrInvalidArg : EspErr := 0x102
def espErrInvalidState : EspErr := 0x103
def espErrTimeout : EspErr := 0x107

/-- The first error among results, or `ESP_OK`. -/
def firstError : List EspErr → EspErr
  | [] => espOk
  | err :: errs => if err ≠ espOk then err else firstError errs

end EspErr
