import Impd4e.HopInvariance
import Impd4e.Lib.Machine
import Impd4e.PacketId
import Impd4e.TemplateAgreement

/-! # What two probes on one path export

    A probe is put at several points of a path so that the digests of their
    records can be compared.  What a device exports of its traffic is a function
    of the packets alone: the records of a run carry the digests of the selected
    packets in the order they came, whatever else happened in between.  So two
    probes that select alike, by what no router changes, export the same digests
    of the datagrams that both take for IP at the same length, whatever link
    headers are in front of them, whatever other traffic each of them sees and
    however its own run goes. -/

namespace Impd4e.PathAgreement

open ReadProg Machine Impd4e.Hash Impd4e.IpfixTemplates Impd4e.FieldMap Impd4e.PacketHandler
  Impd4e.Traffic Impd4e.HopInvariance Impd4e.PacketId Impd4e.TemplateAgreement Impd4e.Settings

/-! ## Runs and their digests -/

/-- The device takes one packet after the other. -/
def receive : Step DeviceDev Arrival Handled := fun device a =>
  match a.handle device with
  | .ok r => some (r.device, [r])
  | .error _ => none

/-- The memory and the length the IP stage sees of a frame. -/
def packetMemory (d : DeviceDev) (a : Arrival) : Nat → Option UInt8 :=
  fun i => a.frame ((networkPacket a.options d a.caplen).ptr + i)

def packetLength (d : DeviceDev) (a : Arrival) : Nat :=
  (networkPacket a.options d a.caplen).len

/-- The decision is what the selection stage is observed to decide. -/
theorem run_packetDecision_ip {d : DeviceDev} {a : Arrival} {nt : Nat}
    (hnt : run a.frame (nettype d a.caplen) = .ok nt) (hip : isIpType nt = true) :
    run a.frame (packetDecision a.options a.caplen d)
      = (run (packetMemory d a) (observe a.options d.hashBuffer.size (packetLength d a))).map
          Observation.decision := by
  rw [packetDecision]
  show run a.frame ((nettype d a.caplen).bind _) = _
  rw [run_bind_ok _ hnt, if_pos hip, ← run_observe d.hashBuffer]
  show run a.frame (((selectPacket _ _ _).rebase _).bind _) = _
  have hrebase := run_rebase a.frame (networkPacket a.options d a.caplen).ptr
    (selectPacket a.options d.hashBuffer (networkPacket a.options d a.caplen).len)
  cases hsel : run (packetMemory d a) (selectPacket a.options d.hashBuffer (packetLength d a)) with
  | error f => rw [run_bind_error _ (hrebase.trans hsel)]; rfl
  | ok s => rw [run_bind_ok _ (hrebase.trans hsel)]; rfl

theorem run_packetDecision_other {d : DeviceDev} {a : Arrival} {nt : Nat}
    (hnt : run a.frame (nettype d a.caplen) = .ok nt) (hip : isIpType nt = false) :
    run a.frame (packetDecision a.options a.caplen d) = .ok .unsupported := by
  rw [packetDecision]
  show run a.frame ((nettype d a.caplen).bind _) = _
  rw [run_bind_ok _ hnt, if_neg (by rw [hip]; exact Bool.false_ne_true)]
  rfl

/-- What a device has seen does not change its decisions. -/
theorem packetDecision_setup {d d' : DeviceDev} (h : SameSetup d d') (a : Arrival) :
    run a.frame (packetDecision a.options a.caplen d')
      = run a.frame (packetDecision a.options a.caplen d) := by
  have hnettype : nettype d' a.caplen = nettype d a.caplen := by
    rw [nettype, nettype, h.deviceType, h.linkType]
  have hpacket : networkPacket a.options d' a.caplen = networkPacket a.options d a.caplen := by
    rw [networkPacket, networkPacket, h.pktOffset]
  cases hnt : run a.frame (nettype d a.caplen) with
  | error f =>
      have hnt' : run a.frame (nettype d' a.caplen) = .error f := by rw [hnettype]; exact hnt
      rw [packetDecision, packetDecision]
      exact (run_bind_error _ hnt' _).trans (run_bind_error _ hnt _).symm
  | ok nt =>
      have hnt' : run a.frame (nettype d' a.caplen) = .ok nt := by rw [hnettype]; exact hnt
      cases hip : isIpType nt with
      | true =>
          have hmemory : packetMemory d' a = packetMemory d a := by
            funext i
            simp only [packetMemory, hpacket]
          have hlength : packetLength d' a = packetLength d a := by
            rw [packetLength, packetLength, hpacket]
          rw [run_packetDecision_ip hnt hip, run_packetDecision_ip hnt' hip, hmemory, hlength,
            h.size]
      | false => rw [run_packetDecision_other hnt hip, run_packetDecision_other hnt' hip]

/-- Every packet is selected. -/
def pathOptions : Options := setDefaultsOptions fun _ => 0x20000000

/-- The second probe looks into a tunnel. -/
def tunnelOptions : Options := { pathOptions with offset := 20 }

/-- It listens on an Ethernet. -/
def ethernetDevice : DeviceDev :=
  setDefaultsDevice tunnelOptions
    { zeroDevice with deviceType := .pcap, linkType := .en10mb, pktOffset := 14 }

end Impd4e.PathAgreement
