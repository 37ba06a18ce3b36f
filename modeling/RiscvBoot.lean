import RiscvBoot.Main
import RiscvBoot.Json.Reader
import RiscvBoot.Boot.Rehearsal
import RiscvBoot.Proofs.Boot.Ending
import RiscvBoot.Proofs.Boot.Warnings
import RiscvBoot.Proofs.Command.Session
import RiscvBoot.Proofs.Emulator.Arguments
import RiscvBoot.Proofs.Kernel.Relocation
import RiscvBoot.Proofs.Kernel.Separation
import RiscvBoot.Proofs.Kernel.Settings
import RiscvBoot.Proofs.Manifest.HartNumber
import RiscvBoot.Proofs.Project.Directories
import RiscvBoot.Proofs.Project.HartsSetting
import RiscvBoot.Proofs.Project.Interference
import RiscvBoot.Proofs.Project.KernelDirectory
import RiscvBoot.Proofs.Project.Obstacles
import RiscvBoot.Proofs.Project.Precedence
import RiscvBoot.Proofs.Project.SweepOrder
import RiscvBoot.Proofs.Report.Checkup
import RiscvBoot.Proofs.Report.Configuration
import RiscvBoot.Proofs.Sweep.Confirmation
import RiscvBoot.Proofs.Sweep.Limit
import RiscvBoot.Proofs.Sweep.Pattern
