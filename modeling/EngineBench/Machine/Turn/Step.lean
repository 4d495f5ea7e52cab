import EngineBench.Machine.Turn.Command

/-!
# Steps of a shell

One step of a shell takes the topmost frame, does what that asks for, and leaves what is still to be
done. A signal that came in is handled first, unless the shell waits for a child.
-/

namespace EngineBench.Turn

open Shell

/-! ## Scripts -/

def fork (t : Turn) (s : Script) (background : Bool) : UInt32 × Turn :=
  let shell :=
    { t.shell with
      frames := [.run s], traps := [], caught := [], lastJob := none, finished := [] }
  let streams :=
    if background then t.process.streams.set 0 (.opened (.device .null)) else t.process.streams
  let ignored :=
    if background then .interrupt :: ⟨3⟩ :: t.process.ignored else t.process.ignored
  t.addChild (.shell shell) t.machine.clock streams ignored

def within (t : Turn) (redirections : List Redirection) (f : Turn → Turn) : Turn :=
  let streams := t.process.streams
  match t.redirectAll redirections with
  | .error text => (t.complain 1 text).setStatus 2
  | .ok t => f (t.push (.restore streams))

def begin (t : Turn) (s : Script) : Turn :=
  match s with
  | .nothing => t
  | .command line assignments words redirections => t.command line assignments words redirections
  | .sequence first second => (t.push (.run second)).push (.run first)
  | .both first second => (t.push (.runIf true second)).push (.run first)
  | .either first second => (t.push (.runIf false second)).push (.run first)
  | .negated s => (t.push .negate).push (.run s)
  | .background s =>
    let (pid, t) := t.fork s true
    { t with shell := { t.shell with lastJob := some pid } }.setStatus 0
  | .group s redirections => t.within redirections fun t => t.push (.run s)
  | .subshell s redirections =>
    t.within redirections fun t =>
      let (pid, t) := t.fork s false
      (t.push (.awaitChild pid)).block
  | .choice condition consequence alternative =>
    (t.push (.branch consequence alternative)).push (.run condition)
  | .loop whileFails condition body =>
    (t.push (.tested whileFails condition body 0)).push (.run condition)
  | .each name words body => (t.setStatus 0).push (.each name (t.expand words) body)

/-! ## Waits -/

/-- Waits for a child of which the status is wanted. One that is unknown has the status 127. -/
def awaitJob (t : Turn) (pid : UInt32) : Turn :=
  if t.machine.processes.any fun p => p.pid = pid && p.parent = some t.process.pid then
    (t.push (.awaitJob pid)).block
  else
    match t.shell.finished.lookup pid with
    | none => t.setStatus 127
    | some status =>
      let finished := t.shell.finished.filter fun e => e.1 ≠ pid
      let t := { t with shell := { t.shell with finished } }
      let t := (obituary? status).elim t fun text => t.say (Text.encode text)
      t.setStatus (statusOf status)

def cutWait (t : Turn) (g : Signal) : Turn :=
  match t.shell.frames with
  | .awaitChildren :: frames | .awaitJob _ :: frames =>
    { t with shell := { t.shell with frames, status := 128 + g.number } }
  | _ => t

/-- The next frame is a wait for a child that is still there. -/
def isWaiting (t : Turn) : Bool :=
  match t.shell.frames with
  | .awaitChild pid :: _ => (t.machine.process? pid).isSome
  | _ => false

/-! ## Steps -/

def resume (t : Turn) (f : Frame) : Turn :=
  match f with
  | .run s => t.begin s
  | .runIf succeeded s => if (t.shell.status == 0) == succeeded then t.push (.run s) else t
  | .negate => t.setStatus (if t.shell.status = 0 then 1 else 0)
  | .branch consequence alternative =>
    if t.shell.status = 0 then t.push (.run consequence)
    else (t.setStatus 0).push (.run alternative)
  | .tested whileFails condition body last =>
    if (t.shell.status == 0) == whileFails then t.setStatus last
    else (t.push (.repeated whileFails condition body)).push (.run body)
  | .repeated whileFails condition body =>
    (t.push (.tested whileFails condition body t.shell.status)).push (.run condition)
  | .each _ [] _ => t
  | .each name (w :: ws) body =>
    let t := { t with shell := t.shell.setVariable name w }
    (t.push (.each name ws body)).push (.run body)
  | .restore streams => t.setStreams streams
  | .revert vars exported => { t with shell := { t.shell with vars, exported } }
  | .settle status => t.setStatus status
  | .leave code => t.exit code
  | .awaitChild pid =>
    if (t.machine.process? pid).isSome then (t.push (.awaitChild pid)).block else t
  | .awaitChildren =>
    if t.machine.processes.any fun p => p.parent = some t.process.pid then
      (t.push .awaitChildren).block
    else t
  | .awaitJob pid => t.awaitJob pid
  | .work [] => t
  | .work (name :: arguments) => t.work [] ((Text.decode? name).getD "") arguments
  | .fail line what => t.fail line what

def handle (t : Turn) (g : Signal) : Turn :=
  match (t.shell.traps.lookup g.number).bind Script.read? with
  | none => t
  | some s => (t.push (.settle t.shell.status)).push (.run s)

def step (t : Turn) : Turn :=
  match t.shell.caught with
  | g :: rest =>
    if t.isWaiting then t.block
    else ({ t with shell := { t.shell with caught := rest } }.cutWait g).handle g
  | [] =>
    match t.shell.frames with
    | [] => t.leave t.shell.status
    | f :: frames => { t with shell := { t.shell with frames } }.resume f

end EngineBench.Turn
