import Impd4e.PacketHandler

/-! # Setting up options and devices -/

namespace Impd4e.Settings

open Impd4e.IpfixTemplates

/-- `set_defaults_options` on the zero `g_options` the program starts with, and
    the chain `baseSelection` of hash.c; the hash function is a parameter. -/
def setDefaultsOptions (calcHashValueBob : HashFunction) : Options where
  numberInterfaces := 0
  templateID := mintId
  offset := 0
  hashFunction := calcHashValueBob
  pktidFunction := none
  selectionFunction := .uTcpAndNet
  rSel := [⟨0, 0⟩]
  selRangeMin := 0x19999999
  selRangeMax := 0x33333333
  snapLength := 80
  exportPacketCount := 1000
  exportPktidInterval := 3
  exportSamplingInterval := 10
  exportStatsInterval := 30
  hashAsPacketID := true

/-- `opt_F` and `opt_p`, on the function `parseFunction` finds. -/
def optF (hashFunction : HashFunction) (options : Options) : Options :=
  { options with hashFunction := hashFunction }

def optP (pktidFunction : HashFunction) (options : Options) : Options :=
  { options with pktidFunction := some pktidFunction, hashAsPacketID := false }

/-- An entry of `if_devices` as the program starts with it. -/
def zeroDevice : DeviceDev where
  deviceType := .unknown
  deviceName := ""
  ipv4Address := ⟨0, 0, 0, 0⟩
  linkType := .other 0
  templateId := 0
  pktOffset := 0
  hashBuffer := {
    ptr := []
    len := 0
    size := 0
    written := 0
    len_le := Nat.le_refl _
    len_le_written := Nat.le_refl _ }
  exportPacketCount := 0
  totalpacketcount := 0
  packetsDropped := 0
  samplingSize := 0
  samplingDeltaCount := 0

/-- `set_defaults_device`, for the fields the model has.  The buffer keeps the
    size `snapLength` has at this moment. -/
def setDefaultsDevice (options : Options) (dev : DeviceDev) : DeviceDev :=
  { dev with
    packetsDropped := 0
    exportPacketCount := 0
    hashBuffer := {
      ptr := List.replicate options.snapLength 0
      len := 0
      size := options.snapLength
      written := 0
      len_le := Nat.zero_le _
      len_le_written := Nat.le_refl _ }
    templateId := absent }

/-- The default options with a hash that is always inside the selection range. -/
def selectAll : Options := setDefaultsOptions (fun _ => 0x20000000)

/-- A socket device set up under `options`. -/
def socketDevice (options : Options) : DeviceDev :=
  setDefaultsDevice options { zeroDevice with deviceType := .socketInet }

end Impd4e.Settings
