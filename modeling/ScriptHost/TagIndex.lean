import ScriptHost.Ordered

/-!
# The tag index

Which tags a script holds, and which functions they are attached to. The attachments are kept from
both sides, so that the tags of a function and the functions of a tag are both found at once.

* `TagIndex.attach` : attaches a tag to a function, on both sides.
* `TagIndex.retainFunctions` : keeps the attachments of some functions only, on both sides.
* `TagIndex.hasTag`, `TagIndex.functionsWithTag`, `TagIndex.tagsOf` : the questions.
-/

namespace ScriptHost

/-- The tags of a script and their attachments to functions, from both sides. -/
structure TagIndex where
  /-- Every tag of the script, attached or not. -/
  tags : NameSet := []
  functionToTags : Entries NameSet := []
  tagToFunctions : Entries NameSet := []
  deriving DecidableEq, Repr

namespace TagIndex

/-- Adds a name to the set under a key. -/
def addTo (key name : String) (sets : Entries NameSet) : Entries NameSet :=
  Entries.insert key (NameSet.insert name ((Entries.find? key sets).getD [])) sets

/-- Adds a tag to the set of all tags. -/
def addTag (index : TagIndex) (tag : String) : TagIndex :=
  { index with tags := NameSet.insert tag index.tags }

/-- Attaches a tag to a function. -/
def attach (index : TagIndex) (function tag : String) : TagIndex :=
  { index with
    functionToTags := addTo function tag index.functionToTags
    tagToFunctions := addTo tag function index.tagToFunctions }

/-- Whether a tag is attached to a function. -/
def hasTag (index : TagIndex) (function tag : String) : Bool :=
  ((Entries.find? function index.functionToTags).getD []).contains tag

/-- The functions that a tag is attached to, in ascending order. -/
def functionsWithTag (index : TagIndex) (tag : String) : List String :=
  (Entries.find? tag index.tagToFunctions).getD []

/-- The tags attached to a function, in ascending order. -/
def tagsOf (index : TagIndex) (function : String) : List String :=
  (Entries.find? function index.functionToTags).getD []

/-- The number of attachments. -/
def attachmentCount (index : TagIndex) : Nat :=
  (index.functionToTags.flatMap Prod.snd).length

/-- Keeps the attachments of the functions that pass the test, and all tags. A tag that loses its
last function is no key any more. -/
def retainFunctions (index : TagIndex) (keep : String → Bool) : TagIndex :=
  { index with
    functionToTags := Entries.retain keep index.functionToTags
    tagToFunctions :=
      (Entries.mapValues (List.filter keep) index.tagToFunctions).filter
        fun entry => !entry.2.isEmpty }

end TagIndex

end ScriptHost
