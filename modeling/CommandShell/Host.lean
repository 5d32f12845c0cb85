import CommandShell.World

/-! # Running on the host

The two things a shell asks of the host: whether a name can be run, and to run a command. -/

namespace CommandShell.Host

/-- How a command ends. -/
def returncode (h : Host) (command : String) : Int := (h.returncodes.get? command).getD 0

/-- Ask the probe program whether a name can be run. A missing program answers no; one that must
not be run is a fault. -/
def probe (name : String) : Shell Bool := do
  let w ← get
  let program := w.probeCommand
  Shell.emit (.probe program name)
  if w.host.denied.contains program then throw (.system .denied [program])
  else if !w.host.probes.contains program then
    Shell.log .warning .process ("Probe command not found: " ++ program)
    pure false
  else
    let found := w.host.executables.contains name
    Shell.log .debug .process
      ("Probe " ++ Text.quoted name ++ ": exit " ++ (if found then "0" else "1"))
    pure found

/-- Run a command, and tell how it ended. -/
def run (command : String) : Shell Int := do
  Shell.log .debug .process ("Running: " ++ command)
  Shell.emit (.run command)
  pure ((← get).host.returncode command)

end CommandShell.Host
