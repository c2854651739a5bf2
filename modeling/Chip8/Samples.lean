/-!
# Sample programs

Listings to start from, by the name under which they are offered. A name that is not offered has
the empty listing.
-/

set_option autoImplicit false

namespace Chip8

/-- Names and listings, in the order in which they are offered. -/
def samples : List (String × String) := [
  ("Digits 0-9", "\n".intercalate [
    "6000  ; V0 = digit",
    "6100  ; V1 = x",
    "6200  ; V2 = y",
    "F029  ; loop: I = font(V0)",
    "D125  ; draw digit",
    "7105  ; x += 5",
    "7001  ; digit += 1",
    "300A  ; skip if digit == 10",
    "1206  ; jump loop",
    "1212  ; done"]),
  ("BCD of 123", "\n".intercalate [
    "637B  ; V3 = 123",
    "A300  ; I = 0x300",
    "F333  ; BCD V3 -> [I]",
    "F265  ; V0..V2 = [I]",
    "6400  ; x",
    "6500  ; y",
    "F029  ; hundreds",
    "D455",
    "7405",
    "F129  ; tens",
    "D455",
    "7405",
    "F229  ; ones",
    "D455",
    "121C  ; done"]),
  ("Wait for key", "\n".intercalate [
    "F00A  ; V0 = key (blocks until a key is held)",
    "F029  ; I = font(V0)",
    "6A00",
    "DAA5  ; draw it at (0, 0)",
    "1208  ; done"]),
  ("Custom", "")]

def sample (name : String) : String := (samples.lookup name).getD ""

end Chip8
