import KnobFirmware.AudioErrorProofs
import KnobFirmware.KnobEncoderProofs
import KnobFirmware.MediaCallbackProofs
import KnobFirmware.MediaCommandProofs
import KnobFirmware.AudioWedgeProofs
import KnobFirmware.AudioStopProofs
import KnobFirmware.BatteryAdcProofs
import KnobFirmware.BatterySnapshotProofs
import KnobFirmware.SessionIsolationProofs
import KnobFirmware.MenuProofs
import KnobFirmware.MenuWidgetProofs
import KnobFirmware.MenuNavigationProofs
import KnobFirmware.BlockStatsProofs
import KnobFirmware.CheckedIntProofs
import KnobFirmware.SdCardProofs
import KnobFirmware.MicMeterProofs
import KnobFirmware.PcmBlockProofs
import KnobFirmware.LoopbackBlockProofs
import KnobFirmware.LoopbackLawProofs
import KnobFirmware.MicBlockProofs
import KnobFirmware.DcImmunityProofs
import KnobFirmware.Drv2605Proofs
import KnobFirmware.KnobDebounceProofs
import KnobFirmware.SdSelfTestProofs
import KnobFirmware.HapticFaultProofs
import KnobFirmware.MediaInitProofs
import KnobFirmware.BatteryPipelineProofs
import KnobFirmware.MeterDynamicsProofs
import KnobFirmware.DisplayAreaProofs
import KnobFirmware.TouchMapProofs
import KnobFirmware.BandScaleProofs
import KnobFirmware.MeterScaleProofs
import KnobFirmware.MicRootProofs
import KnobFirmware.SdCapacityProofs
import KnobFirmware.SdMountProofs
import KnobFirmware.SdMountOrderProofs
import KnobFirmware.HidReportProofs
import KnobFirmware.HostViewProofs
import KnobFirmware.ReportMapProofs
import KnobFirmware.ReportTableProofs
import KnobFirmware.BezelPathProofs
import KnobFirmware.GattTableProofs
import KnobFirmware.HiddLinkProofs
import KnobFirmware.FatMountProofs
import KnobFirmware.SdStackProofs
