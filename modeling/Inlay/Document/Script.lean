import Inlay.Path

set_option autoImplicit false

/-! # Hooks as scripts

A hook is a finite script of operations on the document that it runs for. A script may queue
further scripts and drive the rendering itself. Its load counts its instructions, with those of the
scripts that it queues, so that a script weighs more than any that is left of it after a step.
-/

namespace Inlay

/-- The two queues of hooks: hooks of the late queue wait for those of the other. -/
inductive Queue where
  | post
  | late
  deriving DecidableEq, Repr

/-- How messages name a queue. -/
def Queue.name : Queue → String
  | .post => "post_fx"
  | .late => "late_fx"

/-- One operation of a hook on its document. -/
inductive Action where
  /-- Leave a note for the host. -/
  | note (s : String)
  /-- Leave the text of the document as a note. -/
  | noteText
  /-- Leave the phase and the number of waiting hooks as a note. -/
  | noteState
  /-- Replace the text of the document by a function of it. -/
  | revise (f : String → String)
  | replace (text : String)
  | fail (reason : String)
  | save (path : Path)
  | setSource (text : String)
  | tokenize
  | fetch
  | merge
  /-- Let some milliseconds pass. -/
  | sleep (duration : Nat)

/-- One instruction of a script. -/
inductive Instruction where
  | act (action : Action)
  /-- Queue another script. -/
  | enqueue (queue : Queue) (script : List Instruction)
  /-- Drive the rendering to its end. -/
  | render
  /-- Drive the rendering by one step and note whether there are more. -/
  | step

/-- The instructions of a hook. -/
abbrev Script := List Instruction

mutual

/-- The load of an instruction. -/
def Instruction.load : Instruction → Nat
  | .act _ => 1
  | .enqueue _ script => 2 + scriptLoad script
  | .render => 1
  | .step => 1

/-- The load of a script. -/
def scriptLoad : List Instruction → Nat
  | [] => 0
  | i :: rest => i.load + scriptLoad rest

end

/-- The load of waiting scripts, each of which counts once more for being started. -/
def queueLoad : List Script → Nat
  | [] => 0
  | script :: rest => 1 + scriptLoad script + queueLoad rest

@[simp] theorem queueLoad_nil : queueLoad [] = 0 := rfl

@[simp] theorem queueLoad_cons (script : Script) (rest : List Script) :
    queueLoad (script :: rest) = 1 + scriptLoad script + queueLoad rest := rfl

@[simp] theorem queueLoad_append (xs ys : List Script) :
    queueLoad (xs ++ ys) = queueLoad xs + queueLoad ys := by
  induction xs with
  | nil => simp
  | cons script xs ih =>
    simp only [List.cons_append, queueLoad_cons, ih]
    omega

end Inlay
