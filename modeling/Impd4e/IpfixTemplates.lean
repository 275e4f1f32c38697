import Impd4e.Constants

/-! # The registered IPFIX templates

    The field lists of `ipfix_templates.h`, the ids of `ipfix_handler.h` and the
    table `templates[]` that ties them together.  `ipfix_make_template` is taken
    to keep the list it is given. -/

namespace Impd4e.IpfixTemplates

/-- The information elements the probe exports. -/
inductive FieldType where
  | observationTimeMicroseconds
  | observationTimeMilliseconds
  | digestHashValue
  | ipTtl
  | totalLengthIpv4
  | protocolIdentifier
  | ipVersion
  | sourceIpv4Address
  | sourceTransportPort
  | destinationIpv4Address
  | destinationTransportPort
  | samplingSize
  | packetDeltaCount
  | ptPcapstatRecv
  | ptPcapstatDrop
  | ptInterfaceName
  | ptInterfaceDescription
  | ptSystemCpuIdle
  | ptSystemMemFree
  | ptProcessCpuUser
  | ptProcessCpuSys
  | ptProcessMemVzs
  | ptProcessMemRss
  | ptSystemMemTotal
  | ptGeoLatitude
  | ptGeoLongitude
  | ptProbeName
  | ptProbeLocationName
  | ptMessageId
  | ptMessageValue
  | ptMessage
  deriving DecidableEq, Repr

/-- `export_fields_t`; the enterprise number follows from the field type. -/
structure ExportField where
  ftype : FieldType
  length : Nat
  deriving DecidableEq, Repr

/-! ## `template_id_t` -/

abbrev locationId : Nat := 0
abbrev syncId : Nat := 1
abbrev probeStatsId : Nat := 2
abbrev intfStatsId : Nat := 3
abbrev mintId : Nat := 4
abbrev tsId : Nat := 5
abbrev tsTtlProtoId : Nat := 6
abbrev tsTtlProtoIpId : Nat := 7

/-! ## The field lists -/

def exportFieldsTs : List ExportField :=
  [⟨.observationTimeMicroseconds, 8⟩, ⟨.digestHashValue, 4⟩]

def exportFieldsMin : List ExportField :=
  [⟨.observationTimeMicroseconds, 8⟩, ⟨.digestHashValue, 4⟩, ⟨.ipTtl, 1⟩]

def exportFieldsTsTtlProto : List ExportField :=
  [⟨.observationTimeMicroseconds, 8⟩, ⟨.digestHashValue, 4⟩, ⟨.ipTtl, 1⟩,
   ⟨.totalLengthIpv4, 2⟩, ⟨.protocolIdentifier, 1⟩, ⟨.ipVersion, 1⟩]

def exportFieldsTsTtlProtoIp : List ExportField :=
  [⟨.observationTimeMicroseconds, 8⟩, ⟨.digestHashValue, 4⟩, ⟨.ipTtl, 1⟩,
   ⟨.totalLengthIpv4, 2⟩, ⟨.protocolIdentifier, 1⟩, ⟨.ipVersion, 1⟩,
   ⟨.sourceIpv4Address, 4⟩, ⟨.sourceTransportPort, 2⟩,
   ⟨.destinationIpv4Address, 4⟩, ⟨.destinationTransportPort, 2⟩]

def exportFieldsInterfaceStats : List ExportField :=
  [⟨.observationTimeMilliseconds, 8⟩, ⟨.samplingSize, 4⟩, ⟨.packetDeltaCount, 8⟩,
   ⟨.ptPcapstatRecv, 4⟩, ⟨.ptPcapstatDrop, 4⟩, ⟨.ptInterfaceName, 65535⟩,
   ⟨.ptInterfaceDescription, 65535⟩]

def exportFieldsProbeStats : List ExportField :=
  [⟨.observationTimeMilliseconds, 8⟩, ⟨.ptSystemCpuIdle, 4⟩, ⟨.ptSystemMemFree, 8⟩,
   ⟨.ptProcessCpuUser, 4⟩, ⟨.ptProcessCpuSys, 4⟩, ⟨.ptProcessMemVzs, 8⟩,
   ⟨.ptProcessMemRss, 8⟩, ⟨.ptSystemMemTotal, 8⟩]

def exportFieldsLocation : List ExportField :=
  [⟨.observationTimeMilliseconds, 8⟩, ⟨.sourceIpv4Address, 4⟩,
   ⟨.ptGeoLatitude, 65535⟩, ⟨.ptGeoLongitude, 65535⟩, ⟨.ptProbeName, 65535⟩,
   ⟨.ptProbeLocationName, 65535⟩]

def exportFieldsSync : List ExportField :=
  [⟨.observationTimeMilliseconds, 8⟩, ⟨.ptMessageId, 4⟩, ⟨.ptMessageValue, 4⟩,
   ⟨.ptMessage, 65535⟩]

/-- `templates[]`, in the order of the ids. -/
def templates : List (List ExportField) :=
  [exportFieldsLocation, exportFieldsSync, exportFieldsProbeStats,
   exportFieldsInterfaceStats, exportFieldsMin, exportFieldsTs,
   exportFieldsTsTtlProto, exportFieldsTsTtlProtoIp]

/-- `get_template`; `none` is an index outside the table. -/
def getTemplate (templateId : Nat) : Option (List ExportField) :=
  templates[templateId]?

end Impd4e.IpfixTemplates
