import AccelProfile.FileTree
/-!
# The console

What a run prints goes to a console, one text after the other. A console can refuse a text,
for instance because nothing reads what comes out of it; then other bytes than those of the
text have come out, or none.
-/

namespace AccelProfile.CommandLine

/-- What becomes of a text that is printed behind others: the bytes that come out, and why the
    text is refused, if it is. -/
abbrev Console := List String → String → List UInt8 × Option FileFault

namespace Console

/-- The console that refuses nothing. -/
def patient : Console := fun _ text =>
  (FileTree.bytesOf text, none)

/-- The console that refuses everything. -/
def closed (fault : FileFault) : Console := fun _ _ =>
  ([], some fault)

end Console

end AccelProfile.CommandLine
