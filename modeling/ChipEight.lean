import ChipEight.File.Rom
import ChipEight.Keypad.Layout
import ChipEight.Launch
import ChipEight.Main
import ChipEight.Proofs.BareRun
import ChipEight.Proofs.CallStack
import ChipEight.Proofs.KeyWait
import ChipEight.Proofs.Lifecycle
import ChipEight.Proofs.ReferenceStep
import ChipEight.Screen.Texture
import ChipEight.Session
import ChipEight.Proofs.Deadlines
import ChipEight.Proofs.TimerGrid
import ChipEight.Proofs.ClockRate
import ChipEight.Proofs.Program
import ChipEight.Proofs.TimeOrder
import ChipEight.Proofs.Timeless
import ChipEight.Proofs.Drawing
import ChipEight.Proofs.Strokes
import ChipEight.Proofs.Viewer
import ChipEight.Proofs.Stores
import ChipEight.Proofs.Arithmetic
import ChipEight.Proofs.Bounds
import ChipEight.Proofs.SaveRestore
import ChipEight.Proofs.Commuting
import ChipEight.Proofs.RandomBytes
import ChipEight.Proofs.Loading
import ChipEight.Proofs.KeyHistory
import ChipEight.Proofs.AgendaHistory
import ChipEight.Proofs.Texture
import ChipEight.Proofs.Playing
