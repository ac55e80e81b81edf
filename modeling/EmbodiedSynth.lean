import EmbodiedSynth.Library.Mailbox
import EmbodiedSynth.Library.Lines
import EmbodiedSynth.Library.Rounding
import EmbodiedSynth.Firmware.RateLimit
import EmbodiedSynth.Firmware.SentRange
import EmbodiedSynth.Firmware.DualFilter
import EmbodiedSynth.Synths2Sensors.WireFormat
import EmbodiedSynth.Synths2Sensors.Windows
import EmbodiedSynth.Synths2Sensors.Restart
import EmbodiedSynth.Synths2Sensors.Amounts
import EmbodiedSynth.Synths2Sensors.Agreement
import EmbodiedSynth.Synths2Sensors.ObservedRange
import EmbodiedSynth.ControlPitchSaveCsv.Band
import EmbodiedSynth.ControlPitchSaveCsv.Stream
import EmbodiedSynth.WifiOscControlPitchSaveCsv.Samples
import EmbodiedSynth.WifiOscControlPitchSaveCsv.Timestamps
import EmbodiedSynth.StretchOscLogger.Sealing
import EmbodiedSynth.StretchOscLogger.FailedStart
import EmbodiedSynth.StretchOscLogger.FileNames
import EmbodiedSynth.EmbodiedSynthOsc.Patch
import EmbodiedSynth.Osc.Truncation
import EmbodiedSynth.Osc.Errors
import EmbodiedSynth.Osc.Flags
import EmbodiedSynth.Osc.SerialLink
import EmbodiedSynth.Firmware.Datagrams
import EmbodiedSynth.DirectMapping.Silence
import EmbodiedSynth.DirectMapping.Driven
import EmbodiedSynth.DirectMapping.OtherBoards
