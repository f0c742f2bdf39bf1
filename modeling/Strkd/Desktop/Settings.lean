import Strkd.Core.Felt
import Strkd.Lib.Numeral

/-!
# The settings of the app

`config.json`: the RPC URL of each network and the auto-lock timeout.  A file that is missing or
does not parse loads as the defaults.
-/

namespace Strkd.Desktop

def defaultAutoLockMinutes : U64 := 15

structure Settings where
  sepoliaRpc : String := ""
  mainnetRpc : String := ""
  /-- Auto-lock the wallet after this many minutes of inactivity; 0 is never. -/
  autoLockMinutes : U64 := defaultAutoLockMinutes
  deriving DecidableEq, Repr

/-- The file at the place of `config.json`, if there is one; `some none` is one that does not
parse. -/
abbrev SettingsFile := Option (Option Settings)

namespace Settings

def checkUrl (name url : String) : Except String Unit :=
  let u := trim url
  if u = "" ∨ (stripPrefix "http://" u).isSome ∨ (stripPrefix "https://" u).isSome then .ok ()
  else .error (name ++ " must be an http(s) URL or empty")

/-- Light validation: the timeout may be anything. -/
def validate (s : Settings) : Except String Unit := do
  checkUrl "sepolia_rpc" s.sepoliaRpc
  checkUrl "mainnet_rpc" s.mainnetRpc

/-- What a read of the settings file comes to; a failed read finds no file. -/
def load : SettingsFile → Settings
  | some (some s) => s
  | _ => {}

end Settings

end Strkd.Desktop
