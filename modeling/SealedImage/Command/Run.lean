import SealedImage.Command.Arguments
import SealedImage.Files.Image
import SealedImage.Files.KeyPair
import SealedImage.Journal.Filter

/-!
# Running commands

A command is an action on the file system whose result is the text that the tool prints. A failure prints
its message to the error output and decides the exit code, which is zero for a success and two for arguments
that are no command.
-/

namespace SealedImage

structure Report where
  exitCode : Nat
  output : String
  /-- The error output without the lines of the journal; none for arguments that are no command. -/
  errorOutput : Option String
  /-- The lines of the journal. -/
  log : List String
deriving DecidableEq

namespace Command

/-- The paths of a key pair, one on each line, and a closing line. -/
def keyFilesText (files : KeyFiles) : String :=
  String.join (([files.privateKey, files.publicKey] ++ files.seed.toList).map (· ++ "\n")) ++
    "Key generation completed successfully\n"

/-- The action behind a command; its result is what the tool prints. -/
def action (media : Media) : Command → Action FileSystem String
  | encrypt input key output => do
    Action.report (.encrypting input)
    let summary ← Action.encryptFileOn (media output) input (some key) output .standard
    Action.report (.wrote output summary.scheme summary.containerLength)
    pure "Done\n"
  | decrypt input key output => do
    Action.report (.decrypting input)
    let summary ← Action.decryptFileOn (media output) input key output
    pure ("Binary size: " ++ toString summary.plaintextLength ++ "\nDone\n")
  | generateEccKey directory seed => do
    let seed ← match seed with
      | none => pure none
      | some path => some <$> Action.loadSeed path
    let files ← Action.generateEccPairOn media directory seed
    pure (keyFilesText files)
  | generateRsaKey directory => do
    let files ← Action.generateRsaPairOn media directory
    pure (keyFilesText files)
  | inspect input => do
    let header ← Action.inspectFile input
    pure (header.text ++ "\n")

/-- The exit code for arguments that are no command. -/
def usageExitCode : Nat := 2

/-- What is shown of a command that ended in a result or a failure. -/
def report (wording : Wording) (filter : Filter) (result : Except Failure String) (journal : List Event) : Report :=
  match result with
  | .ok output => ⟨0, output, some "", filter.lines journal⟩
  | .error failure =>
    ⟨failure.exitCode, "", some ("Error: " ++ failure.message wording ++ "\n"), filter.lines journal⟩

/-- What is shown of arguments that are no command: an answer to a question, or the complaint about them. -/
def reply (answer : Option String) : Report :=
  match answer with
  | some text => ⟨0, text, some "", []⟩
  | none => ⟨usageExitCode, "", none, []⟩

/-- Runs the tool on its arguments. The file system and the tape are those that the run leaves behind. -/
def run (wording : Wording) (media : Media) (arguments : List String) (filter : Filter) (tape : Octets)
    (fs : FileSystem) : Option (Report × Octets × FileSystem) :=
  match parse? arguments with
  | none => some (reply (wording.answer? arguments), tape, fs)
  | some command =>
    ((command.action media).outcome ⟨tape, [], fs⟩).map fun (result, s) =>
      (report wording filter result s.journal, s.tape, s.store)

end Command

end SealedImage
