/-
# `VMCPUXML`: the feature list and its edits by position

A `VMCPUXML` instance holds a domain document and edits it in place.  Its `feature_list` is
`findall('/cpu/feature')`: the `feature` children of EVERY `cpu` child of the root, cpu by cpu.
Three methods address a feature by its position `num` in that list, behind one guard,

    if num >= count: raise LibvirtXMLError("<Verb> %d from %d features" % (num, count))

and `add_feature` appends to `find('/cpu')`, the FIRST cpu.

* On a document with one cpu, the methods are list operations on the feature names, and each
  changes the document only at the feature it addresses (`featureOps_refine_names`).
* The guard looks at one side only.  A negative `num` passes it, and Python's `list[num]`
  counts it from the end, so `-1` reads, renames or removes the LAST feature
  (`featureOps_negative_index`); below `-count` the indexing raises `IndexError`.
* A whole session of feature calls, errors caught, moves the names as the list operations, one
  call after another (`featureSession_names`).
* `check_feature_name` iterates over `readline()`, the characters of the first line of
  `/proc/cpuinfo`, not over its lines.  No one character contains `flags`, so it answers
  `False` for every name and every cpuinfo (`checkFeatureName_eq_false`).
* The properties and the features do not interfere: setting `model` or `vendor` keeps
  `feature_list` node for node and what the other property reads (`vmCpuXml_set_independent`),
  and no session of feature calls changes what `model` and `vendor` read
  (`featureSession_keeps_properties`).
-/
import LibvirtXml.VmXml.CpuMode

namespace LibvirtXml

namespace VMCPUXML

open VMXML (pyStrip after)

/-- A method of the instance: it reads and edits the document the instance holds, and one that
raises leaves the document as it was at the raise. -/
abbrev DocM := EStateM PyError Element

/-! ## 1. The methods -/

/-- `VMCPUXML.get_feature_list()`, the `feature_list` property: the nodes of
`findall('/cpu/feature')`. -/
def getFeatureList (vmxml : Element) : List Path :=
  (vmxml.findall "cpu").flatMap fun i => vmxml.findallAt [i] "feature"

/-- The guard of `get_feature_name`, `remove_feature` and `set_feature`, with the method's verb
in its message. -/
def checkIndex (verb : String) (num : Int) (count : Nat) : Except PyError Unit :=
  if num ≥ count then
    .error (.libvirtXMLError (verb ++ " " ++ toString num ++ " from " ++ toString count ++
      " features"))
  else .ok ()

/-- `VMCPUXML.get_feature_name(num)`. -/
def getFeatureName (num : Int) : DocM (Option String) := do
  let vmxml ← get
  let featureList := getFeatureList vmxml
  ofExcept (checkIndex "Get" num featureList.length)
  let node ← ofExcept (pyIndex featureList num)
  pure ((vmxml.getAt? node).bind (·.get "name"))

/-- `VMCPUXML.remove_feature(num)`: `find('/cpu').remove(feature_list[num])`.  `remove` looks
for that very node among the first cpu's children. -/
def removeFeature (num : Int) : DocM Unit := do
  let vmxml ← get
  let featureList := getFeatureList vmxml
  ofExcept (checkIndex "Remove" num featureList.length)
  let node ← ofExcept (pyIndex featureList num)
  match vmxml.find "cpu" with
  | some i => set (← ofExcept (vmxml.removeAt [i] (some node)))
  | none => throw .attributeError

/-- `VMCPUXML.set_feature(num, value)`. -/
def setFeature (num : Int) (value : String) : DocM Unit := do
  let vmxml ← get
  let featureList := getFeatureList vmxml
  ofExcept (checkIndex "Set" num featureList.length)
  let node ← ofExcept (pyIndex featureList num)
  set (vmxml.modifyAt node (·.set "name" value))

/-- `VMCPUXML.add_feature(value)`: a new `<feature name=value/>` after the children of
`find('/cpu')`. -/
def addFeature (value : String) : DocM Unit := do
  let vmxml ← get
  let (vmxml, _) ← ofExcept
    (vmxml.subElementAt ((vmxml.find "cpu").map ([·])) "feature" [("name", value)])
  set vmxml

/-- `str.split(sep)` for a one-character separator: the pieces between separators, empty ones
included. -/
def pySplit (s : String) (sep : Char) : List String :=
  (s.toList.splitOn sep).map String.mk

/-- `file.readline()`: the text up to and including the first newline. -/
def readline (s : String) : String :=
  ⟨s.toList.takeWhile (· ≠ '\n') ++ (if '\n' ∈ s.toList then ['\n'] else [])⟩

/-- The body of `check_feature_name`'s loop, for one `line` of the iteration:
`line.find('flags') != -1`, then the names after the first `:`, added to the set. -/
def addFlags (sysFeature : List String) (line : String) : Except PyError (List String) :=
  if "flags".toList <:+: line.toList then do
    let featureNames ← pyIndex (pySplit line ':') 1
    pure (sysFeature ++ pySplit (pyStrip featureNames) ' ').dedup
  else pure sysFeature

/-- `VMCPUXML.check_feature_name(value)`, where `cpuinfo` is the text of `/proc/cpuinfo`.  The
loop runs over `readline()`, a string, so each `line` it sees is one character. -/
def checkFeatureName (cpuinfo value : String) : Except PyError Bool := do
  let sysFeature ← (readline cpuinfo).toList.foldlM (fun acc c => addFlags acc (String.singleton c)) []
  pure (decide (value ∈ sysFeature))

/-- A definition with one `cpu`, holding a model and two features. -/
def exampleCpuDomain : Element :=
  ⟨"domain", [("type", "kvm")], none,
    [⟨"name", [], some "vm1", []⟩,
     ⟨"cpu", [("mode", "custom"), ("match", "exact")], none,
       [⟨"model", [], some "Penryn", []⟩,
        ⟨"feature", [("policy", "require"), ("name", "vmx")], none, []⟩,
        ⟨"feature", [("policy", "require"), ("name", "sse4.2")], none, []⟩]⟩]⟩

/-! ## 2. One run of each method, by what the guard and the indexing do -/

section Runs

variable (D : Element) {num : Int}

/-- **An index at or past the count is refused**: each of the three methods raises its own
`LibvirtXMLError`, naming the index and the count, and leaves the document as it was. -/
theorem featureOps_of_ge (h : ((getFeatureList D).length : Int) ≤ num) (v : String) :
    let count := (getFeatureList D).length
    let msg (verb : String) := verb ++ " " ++ toString num ++ " from " ++ toString count ++
      " features"
    getFeatureName num D = .error (.libvirtXMLError (msg "Get")) D ∧
      setFeature num v D = .error (.libvirtXMLError (msg "Set")) D ∧
      removeFeature num D = .error (.libvirtXMLError (msg "Remove")) D := by
  have hc : ∀ verb, checkIndex verb num (getFeatureList D).length = .error (.libvirtXMLError
      (verb ++ " " ++ toString num ++ " from " ++ toString (getFeatureList D).length ++
        " features")) := fun verb => if_pos h
  simp only [getFeatureName, setFeature, removeFeature, bind, EStateM.bind, get, getThe,
    MonadStateOf.get, EStateM.get, hc, ofExcept, throw, throwThe, MonadExceptOf.throw,
    EStateM.throw, and_self]

theorem featureOps_of_ge_two : ((getFeatureList exampleCpuDomain).length : Int) ≤ 2 ∧
    getFeatureName 2 exampleCpuDomain =
      .error (.libvirtXMLError "Get 2 from 2 features") exampleCpuDomain := by
  have h : ((getFeatureList exampleCpuDomain).length : Int) ≤ 2 := by decide
  refine ⟨h, ?_⟩
  rw [(featureOps_of_ge exampleCpuDomain h "x").1]
  rfl

/-- Past the guard, an index that Python's indexing rejects raises `IndexError`, and the
document stays as it was. -/
theorem featureOps_of_indexError (hlt : num < (getFeatureList D).length)
    (hp : pyIndex (getFeatureList D) num = .error .indexError) (v : String) :
    getFeatureName num D = .error .indexError D ∧ setFeature num v D = .error .indexError D ∧
      removeFeature num D = .error .indexError D := by
  have hc : ∀ verb, checkIndex verb num (getFeatureList D).length = .ok () :=
    fun verb => if_neg (not_le.mpr hlt)
  simp only [getFeatureName, setFeature, removeFeature, bind, EStateM.bind, get, getThe,
    MonadStateOf.get, EStateM.get, hc, hp, ofExcept, pure, EStateM.pure, throw, throwThe,
    MonadExceptOf.throw, EStateM.throw, and_self]

theorem featureOps_of_indexError_neg_three :
    (-3 : Int) < (getFeatureList exampleCpuDomain).length ∧
      pyIndex (getFeatureList exampleCpuDomain) (-3) = .error .indexError ∧
      removeFeature (-3) exampleCpuDomain = .error .indexError exampleCpuDomain := by
  have hlen : (getFeatureList exampleCpuDomain).length = 2 := by decide
  have hp : pyIndex (getFeatureList exampleCpuDomain) (-3) = .error .indexError := by
    simp [pyIndex, hlen]
  exact ⟨by decide, hp, (featureOps_of_indexError exampleCpuDomain (by decide) hp "x").2.2⟩

variable {D} {p : Path}

/-- Past the guard, `get_feature_name` reads the node `feature_list[num]`. -/
theorem getFeatureName_of_index (hlt : num < (getFeatureList D).length)
    (hp : pyIndex (getFeatureList D) num = .ok p) :
    getFeatureName num D = .ok ((D.getAt? p).bind (·.get "name")) D := by
  simp only [getFeatureName, bind, EStateM.bind, get, getThe, MonadStateOf.get, EStateM.get,
    checkIndex, if_neg (not_le.mpr hlt), hp, ofExcept, pure, EStateM.pure]

/-- Past the guard, `set_feature` renames the node `feature_list[num]` in place. -/
theorem setFeature_of_index (hlt : num < (getFeatureList D).length)
    (hp : pyIndex (getFeatureList D) num = .ok p) (v : String) :
    setFeature num v D = .ok () (D.modifyAt p (·.set "name" v)) := by
  simp only [setFeature, bind, EStateM.bind, get, getThe, MonadStateOf.get, EStateM.get,
    checkIndex, if_neg (not_le.mpr hlt), hp, ofExcept, pure, EStateM.pure, set,
    MonadStateOf.set, EStateM.set]

/-- Past the guard, `remove_feature` removes the node `feature_list[num]` from the first cpu,
when it is a child of that cpu. -/
theorem removeFeature_of_index {c j : Nat} (hlt : num < (getFeatureList D).length)
    (hp : pyIndex (getFeatureList D) num = .ok [c, j]) (hc : D.find "cpu" = some c)
    (hx : (D.getAt? [c, j]).isSome) :
    removeFeature num D = .ok () (D.modifyAt [c] (·.removeChild j)) := by
  obtain ⟨x, hx⟩ := Option.isSome_iff_exists.mp hx
  have hrm : D.removeAt [c] (some [c, j]) = .ok (D.modifyAt [c] (·.removeChild j)) :=
    Element.removeAt_child (x := x) hx
  simp only [removeFeature, bind, EStateM.bind, get, getThe, MonadStateOf.get, EStateM.get,
    checkIndex, if_neg (not_le.mpr hlt), hp, hc, hrm, ofExcept, pure, EStateM.pure, set,
    MonadStateOf.set, EStateM.set]

/-- `add_feature` appends a named feature to the first cpu. -/
theorem addFeature_of_cpu {c : Nat} {cpu : Element} (hc : D.find "cpu" = some c)
    (hcpu : D.child? c = some cpu) (v : String) :
    addFeature v D = .ok () (D.modifyAt [c] (·.subElement "feature" [("name", v)])) := by
  simp [addFeature, bind, EStateM.bind, get, getThe, MonadStateOf.get, EStateM.get, hc, hcpu,
    Element.subElementAt, ofExcept, pure, EStateM.pure, set, MonadStateOf.set, EStateM.set]

end Runs

/-! ## 3. One cpu: the methods as list operations on the names -/

/-- names(D): the `name` attributes of the features of the root's first `cpu`, in order. -/
def featureNames (d : Element) : List (Option String) :=
  ((d.children.find? (·.tag == "cpu")).map fun cpu =>
    (cpu.children.filter (·.tag == "feature")).map (·.get "name")).getD []

section OneCpu

variable {D cpu : Element} {c : Nat}

theorem find_cpu (hc : D.findall "cpu" = [c]) : D.find "cpu" = some c := by
  simp [Element.find, hc]

theorem find?_cpu (hc : D.findall "cpu" = [c]) (hcpu : D.child? c = some cpu) :
    D.children.find? (·.tag == "cpu") = some cpu := by
  rw [← Element.bind_child?_find, find_cpu hc, Option.some_bind, hcpu]

theorem getFeatureList_one_cpu (hc : D.findall "cpu" = [c]) (hcpu : D.child? c = some cpu) :
    getFeatureList D = (positions (·.tag == "feature") cpu.children).map ([c, ·]) := by
  rw [getFeatureList, hc]
  simp [Element.findallAt, hcpu, Element.findall]

theorem featureNames_one_cpu (hc : D.findall "cpu" = [c]) (hcpu : D.child? c = some cpu) :
    featureNames D = (cpu.children.filter (·.tag == "feature")).map (·.get "name") := by
  simp [featureNames, find?_cpu hc hcpu]

/-- The names of a document whose first cpu is edited by `g`. -/
theorem featureNames_modifyFirst (hc : D.findall "cpu" = [c]) (hcpu : D.child? c = some cpu)
    {g : Element → Element} (hg : ∀ x, (g x).tag = x.tag) :
    featureNames (D.modifyFirst "cpu" g) =
      ((g cpu).children.filter (·.tag == "feature")).map (·.get "name") := by
  simp [featureNames, Element.find?_modifyFirst_self hg, find?_cpu hc hcpu]

theorem modifyAt_cpu (hc : D.findall "cpu" = [c]) (p : Path) (f : Element → Element) :
    D.modifyAt (c :: p) f = D.modifyFirst "cpu" (·.modifyAt p f) := by
  simp [Element.modifyFirst, find_cpu hc]

/-- The `i`-th feature of a one-cpu document is the cpu's child `j`, its `i`-th feature. -/
theorem feature_index (hc : D.findall "cpu" = [c]) (hcpu : D.child? c = some cpu) {i : Nat}
    (hi : i < (featureNames D).length) :
    ∃ j, (positions (·.tag == "feature") cpu.children)[i]? = some j ∧
      (getFeatureList D)[i]? = some [c, j] ∧ pyIndex (getFeatureList D) i = .ok [c, j] ∧
      (i : Int) < (getFeatureList D).length := by
  rw [featureNames_one_cpu hc hcpu, List.length_map, ← length_positions] at hi
  obtain ⟨j, hj⟩ : ∃ j, (positions (·.tag == "feature") cpu.children)[i]? = some j :=
    ⟨_, List.getElem?_eq_getElem hi⟩
  have hget : (getFeatureList D)[i]? = some [c, j] := by
    simp [getFeatureList_one_cpu hc hcpu, hj]
  obtain ⟨hlt, hx⟩ := List.getElem?_eq_some_iff.mp hget
  exact ⟨_, hj, hget, by rw [pyIndex_of_lt _ _ hlt, hx], by omega⟩

/-- `get_feature_name(i)` reads `names[i]`. -/
theorem getFeatureName_one_cpu (hc : D.findall "cpu" = [c]) (hcpu : D.child? c = some cpu)
    {i : Nat} (hi : i < (featureNames D).length) :
    getFeatureName i D = .ok (featureNames D)[i] D := by
  obtain ⟨j, hj, -, hp, hlt⟩ := feature_index hc hcpu hi
  rw [getFeatureName_of_index hlt hp]
  have hb := bind_getElem?_positions (·.tag == "feature") cpu.children i
  rw [hj, Option.some_bind] at hb
  have hi' : i < (cpu.children.filter (·.tag == "feature")).length := by
    simpa [featureNames_one_cpu hc hcpu] using hi
  have hcpu' : D.children[c]? = some cpu := hcpu
  simp [hcpu', Element.child?, hb, List.getElem?_eq_getElem hi', featureNames_one_cpu hc hcpu]

/-- `set_feature(i, v)` renames the `i`-th feature in place: `names[i] := v`. -/
theorem setFeature_one_cpu (hc : D.findall "cpu" = [c]) (hcpu : D.child? c = some cpu)
    {i : Nat} (hi : i < (featureNames D).length) (v : String) :
    ∃ j, (getFeatureList D)[i]? = some [c, j] ∧
      setFeature i v D = .ok () (D.modifyAt [c, j] (·.set "name" v)) ∧
      featureNames (D.modifyAt [c, j] (·.set "name" v)) = (featureNames D).set i (some v) := by
  obtain ⟨j, hj, hget, hp, hlt⟩ := feature_index hc hcpu hi
  refine ⟨j, hget, setFeature_of_index hlt hp v, ?_⟩
  simp only [modifyAt_cpu hc, featureNames_modifyFirst hc hcpu, Element.modifyAt_cons,
    Element.modifyAt_nil, Element.tag_modifyChild, implies_true, featureNames_one_cpu hc hcpu,
    Element.modifyChild]
  rw [filter_modify_positions _ _ (fun a => by simp) _ hj,
    map_modify_of_const _ _ (fun a => Element.get_set_self a "name" v)]

/-- `remove_feature(i)` removes the `i`-th feature from its cpu: `names.eraseIdx i`. -/
theorem removeFeature_one_cpu (hc : D.findall "cpu" = [c]) (hcpu : D.child? c = some cpu)
    {i : Nat} (hi : i < (featureNames D).length) :
    ∃ j, (positions (·.tag == "feature") cpu.children)[i]? = some j ∧
      (getFeatureList D)[i]? = some [c, j] ∧
      removeFeature i D = .ok () (D.modifyAt [c] (·.removeChild j)) ∧
      featureNames (D.modifyAt [c] (·.removeChild j)) = (featureNames D).eraseIdx i := by
  obtain ⟨j, hj, hget, hp, hlt⟩ := feature_index hc hcpu hi
  obtain ⟨x, -, hx⟩ := exists_of_mem_positions _ (List.getElem?_mem hj)
  have hcpu' : D.children[c]? = some cpu := hcpu
  refine ⟨j, hj, hget, removeFeature_of_index hlt hp (find_cpu hc)
    (by simp [hcpu', Element.child?, hx]), ?_⟩
  simp only [modifyAt_cpu hc, featureNames_modifyFirst hc hcpu, Element.modifyAt_nil,
    Element.tag_removeChild, implies_true, featureNames_one_cpu hc hcpu, Element.removeChild]
  rw [filter_eraseIdx_positions _ _ hj, map_eraseIdx]

/-- `add_feature(v)` appends a feature to the cpu: `names ++ [v]`. -/
theorem addFeature_one_cpu (hc : D.findall "cpu" = [c]) (hcpu : D.child? c = some cpu)
    (v : String) :
    addFeature v D = .ok () (D.modifyAt [c] (·.subElement "feature" [("name", v)])) ∧
      featureNames (D.modifyAt [c] (·.subElement "feature" [("name", v)])) =
        featureNames D ++ [some v] := by
  refine ⟨addFeature_of_cpu (find_cpu hc) hcpu v, ?_⟩
  simp only [modifyAt_cpu hc, featureNames_modifyFirst hc hcpu, Element.modifyAt_nil,
    Element.tag_subElement, implies_true, featureNames_one_cpu hc hcpu]
  simp [Element.subElement, Element.get, List.filter_append, List.lookup_cons]

/-- **Adding a feature, then removing the last one, gives the document back.** -/
theorem addFeature_removeFeature (hc : D.findall "cpu" = [c]) (hcpu : D.child? c = some cpu)
    (v : String) : (do addFeature v; removeFeature (featureNames D).length) D = .ok () D := by
  obtain ⟨hadd, hnames⟩ := addFeature_one_cpu hc hcpu v
  have hc₁ : (D.modifyAt [c] (·.subElement "feature" [("name", v)])).findall "cpu" = [c] :=
    (positions_modify (fun x : Element => x.tag == "cpu")
      (·.modifyAt [] (·.subElement "feature" [("name", v)])) D.children c (fun _ _ => rfl)).trans
      (show positions (fun x : Element => x.tag == "cpu") D.children = [c] from hc)
  have hcpu₁ : (D.modifyAt [c] (·.subElement "feature" [("name", v)])).child? c =
      some (cpu.subElement "feature" [("name", v)]) := by
    simp [Element.child?_modifyChild_self, hcpu]
  obtain ⟨j, hj, -, hrm, -⟩ := removeFeature_one_cpu hc₁ hcpu₁
    (i := (featureNames D).length) (by rw [hnames]; simp)
  have hjlen : j = cpu.children.length := by
    have hlen :
        (featureNames D).length = (positions (·.tag == "feature") cpu.children).length := by
      simp [featureNames_one_cpu hc hcpu, length_positions]
    simpa [Element.subElement, positions_append_singleton, hlen] using hj.symm
  subst hjlen
  simp only [bind, EStateM.bind, hadd, hrm, Element.modifyAt_modifyAt]
  congr 1
  refine Element.modifyAt_eq_self (x := cpu) (by simp [hcpu]) ?_
  cases cpu
  simp [Element.subElement, Element.removeChild, List.eraseIdx_append_of_length_le]

end OneCpu

/-- A root with exactly one `cpu` child: where it is, and what it is. -/
theorem exists_one_cpu {D : Element} (h : (D.children.filter (·.tag == "cpu")).length = 1) :
    ∃ c cpu, D.findall "cpu" = [c] ∧ D.child? c = some cpu := by
  have hlen : (D.findall "cpu").length = 1 := by rw [Element.findall, length_positions, h]
  obtain ⟨c, hc⟩ := List.length_eq_one.mp hlen
  obtain ⟨cpu, hcpu, -⟩ := Element.child?_of_find (show D.find "cpu" = some c by
    simp [Element.find, hc])
  exact ⟨c, cpu, hc, hcpu⟩

/-- **On a document with one cpu, the feature methods are list operations on the names.**
`get_feature_name(i)` reads `names[i]`; `set_feature(i, v)` renames the `i`-th feature in place,
`remove_feature(i)` removes it from its cpu and `add_feature(v)` appends a feature to the cpu,
so that the names become `names[i := v]`, `names.eraseIdx i` and `names ++ [v]`; and adding a
feature, then removing the last one, gives the document back. -/
theorem featureOps_refine_names {D : Element}
    (hone : (D.children.filter (·.tag == "cpu")).length = 1) (v : String) :
    (∀ (i : Nat) (hi : i < (featureNames D).length),
      getFeatureName i D = .ok (featureNames D)[i] D) ∧
    (∀ i : Nat, i < (featureNames D).length → ∃ p, (getFeatureList D)[i]? = some p ∧
      setFeature i v D = .ok () (D.modifyAt p (·.set "name" v)) ∧
      featureNames (D.modifyAt p (·.set "name" v)) = (featureNames D).set i (some v)) ∧
    (∀ i : Nat, i < (featureNames D).length → ∃ c j, (getFeatureList D)[i]? = some [c, j] ∧
      removeFeature i D = .ok () (D.modifyAt [c] (·.removeChild j)) ∧
      featureNames (D.modifyAt [c] (·.removeChild j)) = (featureNames D).eraseIdx i) ∧
    (∃ c, addFeature v D = .ok () (D.modifyAt [c] (·.subElement "feature" [("name", v)])) ∧
      featureNames (D.modifyAt [c] (·.subElement "feature" [("name", v)])) =
        featureNames D ++ [some v]) ∧
    (do addFeature v; removeFeature (featureNames D).length) D = .ok () D := by
  obtain ⟨c, cpu, hc, hcpu⟩ := exists_one_cpu hone
  refine ⟨fun i hi => getFeatureName_one_cpu hc hcpu hi, fun i hi => ?_, fun i hi => ?_,
    ⟨c, addFeature_one_cpu hc hcpu v⟩, addFeature_removeFeature hc hcpu v⟩
  · obtain ⟨j, hget, hset, hn⟩ := setFeature_one_cpu hc hcpu hi v
    exact ⟨_, hget, hset, hn⟩
  · obtain ⟨j, -, hget, hrm, hn⟩ := removeFeature_one_cpu hc hcpu hi
    exact ⟨c, j, hget, hrm, hn⟩

theorem featureOps_refine_names_vm1 :
    (exampleCpuDomain.children.filter (·.tag == "cpu")).length = 1 ∧
      getFeatureName 1 exampleCpuDomain = .ok (some "sse4.2") exampleCpuDomain :=
  ⟨by decide, (featureOps_refine_names (D := exampleCpuDomain) (by decide) "x").1 1 (by decide)⟩

/-- **A negative index passes the guard.**  On the two features of `exampleCpuDomain`, `-1` is
not refused: `get_feature_name(-1)` reads the last feature, `set_feature(-1, "x")` renames it,
and `remove_feature(-1)` removes it. -/
theorem featureOps_negative_index :
    getFeatureName (-1) exampleCpuDomain = .ok (some "sse4.2") exampleCpuDomain ∧
      (∃ D', setFeature (-1) "x" exampleCpuDomain = .ok () D' ∧
        featureNames D' = [some "vmx", some "x"]) ∧
      (∃ D', removeFeature (-1) exampleCpuDomain = .ok () D' ∧ featureNames D' = [some "vmx"]) :=
  ⟨rfl, ⟨_, rfl, rfl⟩, ⟨_, rfl, rfl⟩⟩

/-! ## 4. `check_feature_name` -/

/-- The names the claim reads out of `/proc/cpuinfo`: on each line that contains `flags`, the
space-separated names after the first `:`. -/
def cpuFlags (cpuinfo : String) : List String :=
  ((cpuinfo.toList.splitOn '\n').filter ("flags".toList <:+: ·)).flatMap fun line =>
    pySplit (pyStrip ⟨(line.dropWhile (· ≠ ':')).drop 1⟩) ' '

/-- One character never contains `flags`, so the loop body never fires. -/
theorem addFlags_singleton (acc : List String) (c : Char) :
    addFlags acc (String.singleton c) = .ok acc := by
  have h : ¬ "flags".toList <:+: (String.singleton c).toList := fun h => by
    simpa using h.length_le
  rw [addFlags, if_neg h]; rfl

theorem foldlM_addFlags_chars (l : List Char) (acc : List String) :
    l.foldlM (fun acc c => addFlags acc (String.singleton c)) acc = .ok acc := by
  rw [foldlM_except_ok _ (fun acc _ => acc) l acc fun b x _ => addFlags_singleton b x]
  induction l generalizing acc with
  | nil => rfl
  | cons _ l ih => exact ih acc

/-- **`check_feature_name` answers `False`**, for every name and every `/proc/cpuinfo`. -/
theorem checkFeatureName_eq_false (cpuinfo value : String) :
    checkFeatureName cpuinfo value = .ok false := by
  simp [checkFeatureName, foldlM_addFlags_chars, bind, Except.bind, pure, Except.pure]

/-- **A flag the host has is reported missing.**  `fpu` is a flag of the line
`flags\t\t: fpu vme`, and `check_feature_name("fpu")` still answers `False`. -/
theorem checkFeatureName_fpu :
    "fpu" ∈ cpuFlags "flags\t\t: fpu vme\n" ∧
      checkFeatureName "flags\t\t: fpu vme\n" "fpu" = .ok false := by
  refine ⟨by decide, ?_⟩
  simp [checkFeatureName, foldlM_addFlags_chars, bind, Except.bind, pure, Except.pure]

/-! ## 5. Sessions of feature edits

A test calls the feature methods one after another on the instance's document, catching what
they raise.  On a document with one cpu, every call keeps one cpu and moves the names as its
list operation says (`FeatureOp.run_step`): `set_feature(i, v)` is `names[i := v]`,
`remove_feature(i)` is `names.eraseIdx i`, `add_feature(v)` appends, and `get_feature_name`
changes nothing; an index past the end raises and changes nothing, as the list operations do.
So a whole session moves the names as the list operations, one after another
(`featureSession_names`). -/

/-- A root with exactly one `cpu` child. -/
def OneCpu (d : Element) : Prop := (d.children.filter (·.tag == "cpu")).length = 1

instance (d : Element) : Decidable (OneCpu d) := inferInstanceAs (Decidable (_ = 1))

/-- An edit below the cpu keeps one cpu. -/
theorem oneCpu_modifyAt {d : Element} (hd : OneCpu d) {f : Element → Element}
    (hf : ∀ x, (f x).tag = x.tag) (c : Nat) (p : Path) : OneCpu (d.modifyAt (c :: p) f) := by
  have h := positions_modify (fun x : Element => x.tag == "cpu") (·.modifyAt p f) d.children c
    (fun a _ => by simp [Element.tag_modifyAt hf])
  unfold OneCpu at hd ⊢
  rw [← length_positions] at hd ⊢
  rw [Element.modifyAt_cons, Element.modifyChild]
  simp only at h ⊢
  rw [h, hd]

/-- `get_feature_name` only reads. -/
theorem after_getFeatureName (num : Int) (d : Element) : after (getFeatureName num d) = d := by
  simp only [getFeatureName, bind, EStateM.bind, get, getThe, MonadStateOf.get, EStateM.get]
  cases checkIndex "Get" num (getFeatureList d).length <;>
    cases pyIndex (getFeatureList d) num <;> rfl

/-- Past the end, the guard raises before anything changes. -/
theorem after_of_ge {d : Element} {num : Int} (h : ((getFeatureList d).length : Int) ≤ num)
    (v : String) : after (setFeature num v d) = d ∧ after (removeFeature num d) = d := by
  simp only [setFeature, removeFeature, bind, EStateM.bind, get, getThe, MonadStateOf.get,
    EStateM.get, checkIndex, if_pos h, ofExcept, throw, throwThe, MonadExceptOf.throw,
    EStateM.throw]
  exact ⟨rfl, rfl⟩

/-- A call of one of the feature methods, with a natural index. -/
inductive FeatureOp where
  | getFeatureName (num : Nat)
  | setFeature (num : Nat) (value : String)
  | removeFeature (num : Nat)
  | addFeature (value : String)
deriving Repr, DecidableEq

namespace FeatureOp

/-- The document a call leaves, whether it returned or raised. -/
def run : FeatureOp → Element → Element
  | getFeatureName i, d => after (VMCPUXML.getFeatureName i d)
  | setFeature i v, d => after (VMCPUXML.setFeature i v d)
  | removeFeature i, d => after (VMCPUXML.removeFeature i d)
  | addFeature v, d => after (VMCPUXML.addFeature v d)

/-- What a call is meant to do to the names. -/
def onNames : FeatureOp → List (Option String) → List (Option String)
  | getFeatureName _, l => l
  | setFeature i v, l => l.set i (some v)
  | removeFeature i, l => l.eraseIdx i
  | addFeature v, l => l ++ [some v]

/-- **One call**: one cpu stays one cpu, and the names move as the call's list operation. -/
theorem run_step (op : FeatureOp) {d : Element} (hd : OneCpu d) :
    OneCpu (op.run d) ∧ featureNames (op.run d) = op.onNames (featureNames d) := by
  obtain ⟨c, cpu, hc, hcpu⟩ := exists_one_cpu hd
  have hlen : (getFeatureList d).length = (featureNames d).length := by
    simp [getFeatureList_one_cpu hc hcpu, featureNames_one_cpu hc hcpu, length_positions]
  cases op with
  | getFeatureName i =>
    simp only [run, onNames, after_getFeatureName]
    exact ⟨hd, trivial⟩
  | setFeature i v =>
    by_cases hi : i < (featureNames d).length
    · obtain ⟨j, -, hset, hn⟩ := setFeature_one_cpu hc hcpu hi v
      simp only [run, onNames, hset, after]
      exact ⟨oneCpu_modifyAt hd (Element.tag_set · "name" v) c [j], hn⟩
    · have hge : ((getFeatureList d).length : Int) ≤ i := by rw [hlen]; omega
      simp only [run, onNames, (after_of_ge hge v).1]
      exact ⟨hd, (List.set_eq_of_length_le (by omega)).symm⟩
  | removeFeature i =>
    by_cases hi : i < (featureNames d).length
    · obtain ⟨j, -, -, hrm, hn⟩ := removeFeature_one_cpu hc hcpu hi
      simp only [run, onNames, hrm, after]
      exact ⟨oneCpu_modifyAt hd (Element.tag_removeChild · j) c [], hn⟩
    · have hge : ((getFeatureList d).length : Int) ≤ i := by rw [hlen]; omega
      simp only [run, onNames, (after_of_ge hge "").2]
      exact ⟨hd, (List.eraseIdx_of_length_le (by omega)).symm⟩
  | addFeature v =>
    obtain ⟨hadd, hn⟩ := addFeature_one_cpu hc hcpu v
    simp only [run, onNames, hadd, after]
    exact ⟨oneCpu_modifyAt hd (Element.tag_subElement · "feature" [("name", v)]) c [], hn⟩

end FeatureOp

/-- Feature calls one after another, each on the document the previous one left. -/
def featureSession : List FeatureOp → Element → Element
  | [], d => d
  | op :: ops, d => featureSession ops (op.run d)

/-- **A session of feature calls is a session of list operations on the names**: on a document
with one cpu, whatever the calls and whichever of them raise, the document keeps one cpu and its
names are the list operations applied one after another. -/
theorem featureSession_names (ops : List FeatureOp) {d : Element} (hd : OneCpu d) :
    OneCpu (featureSession ops d) ∧
      featureNames (featureSession ops d) =
        ops.foldl (fun l op => op.onNames l) (featureNames d) := by
  induction ops generalizing d with
  | nil => exact ⟨hd, rfl⟩
  | cons op ops ih =>
    obtain ⟨hd', hn⟩ := op.run_step hd
    rw [featureSession, List.foldl_cons, ← hn]
    exact ih hd'

theorem featureSession_names_example : OneCpu exampleCpuDomain ∧
    featureNames (featureSession [.addFeature "x", .removeFeature 0, .setFeature 5 "y"]
      exampleCpuDomain) = [some "sse4.2", some "x"] :=
  have hd : OneCpu exampleCpuDomain := by decide
  ⟨hd, (featureSession_names _ hd).2.trans (by decide)⟩

/-! ## 6. The properties and the feature list do not interfere

`model` and `vendor` edit the first `cpu` (a new one when there is none) at their own tag, so
`feature_list`, node for node, and every feature element stay as they were, and each property
keeps what the other reads (`vmCpuXml_set_independent`). -/

/-- An edit of the first `cpu`, or of a new one, that keeps the tag, where the features are and
the features themselves, keeps the feature list and every node of it. -/
theorem getFeatureList_setChildWith {d : Element} {g : Element → Element}
    (hg : ∀ x, (g x).tag = x.tag) (hpos : ∀ x, (g x).findall "feature" = x.findall "feature")
    (hch : ∀ x, ∀ j ∈ x.findall "feature", (g x).child? j = x.child? j) :
    getFeatureList (d.setChildWith "cpu" g) = getFeatureList d ∧
      ∀ p ∈ getFeatureList d, (d.setChildWith "cpu" g).getAt? p = d.getAt? p := by
  unfold Element.setChildWith
  cases hi : d.find "cpu" with
  | none =>
    -- a new `cpu` is appended, with no feature
    have hnil : d.findall "cpu" = [] := by simpa [Element.find] using hi
    rw [Element.subElement_modifyChild_length]
    have hnew : (g ⟨"cpu", [], none, []⟩).findall "feature" = [] := hpos _
    refine ⟨?_, by simp [getFeatureList, hnil]⟩
    simp only [Element.findall] at hnil hnew
    simp [getFeatureList, Element.findall, positions_append_singleton, hg, hnil,
      Element.findallAt, Element.child?, hnew]
  | some i =>
    -- the first `cpu` is edited in place
    have hcpu : (d.modifyChild i g).findall "cpu" = d.findall "cpu" :=
      positions_modify (fun x : Element => x.tag == "cpu") g d.children i fun a _ => by simp [hg]
    have hchild : ∀ k, (d.modifyChild i g).child? k =
        if k = i then (d.child? i).map g else d.child? k := by
      intro k
      split
      · subst_vars; exact Element.child?_modifyChild_self d k g
      · exact Element.child?_modifyChild_ne d g (Ne.symm ‹_›)
    have hat : ∀ k, (d.modifyChild i g).findallAt [k] "feature" = d.findallAt [k] "feature" := by
      intro k
      simp only [Element.findallAt, Element.getAt?_cons, Element.getAt?_nil, hchild]
      split
      · subst_vars; cases d.child? k <;> simp [hpos]
      · rfl
    refine ⟨by simp only [getFeatureList, hcpu, hat], fun p hp => ?_⟩
    simp only [getFeatureList, List.mem_flatMap] at hp
    obtain ⟨k, -, hp⟩ := hp
    simp only [Element.findallAt, Element.getAt?_cons, Element.getAt?_nil] at hp
    cases hx : d.child? k with
    | none => simp [hx] at hp
    | some x =>
      simp only [hx, Option.some_bind, Option.map_some', Option.getD_some, List.mem_map] at hp
      obtain ⟨j, hj, rfl⟩ := hp
      simp only [List.singleton_append, Element.getAt?_cons, Element.getAt?_nil, hchild]
      split
      · subst_vars; simp [hx, hch x j hj]
      · rfl

/-- **`model` and `vendor` do not interfere with each other or with the feature list**: on
every document, setting either keeps `feature_list` node for node, every feature element it
points to, and what the other property reads. -/
theorem vmCpuXml_set_independent (d : Element) (s : String) :
    ∀ desc ∈ [model, vendor], ∀ d', desc.setText d s = .ok d' →
      (getFeatureList d' = getFeatureList d ∧ ∀ p ∈ getFeatureList d, d'.getAt? p = d.getAt? p) ∧
        ∀ other ∈ [model, vendor], other ≠ desc → other.getText d' = other.getText d := by
  have hfacts : ∀ desc ∈ [model, vendor], xpathSteps desc.parentXpath = ["cpu"] ∧
      "get" ∉ desc.forbidden ∧ "set" ∉ desc.forbidden ∧ desc.tagName ≠ "feature" ∧
      ∀ other ∈ [model, vendor], other ≠ desc → desc.tagName ≠ other.tagName := by
    decide
  intro desc hdesc d' hd'
  obtain ⟨hp, -, hs, hfeat, htags⟩ := hfacts desc hdesc
  rw [Descriptor.setText_of_child hp hs s, Except.ok.injEq] at hd'
  subst hd'
  -- the setter's edit of the cpu is a `setChildWith` at its own tag
  have hedit : ∀ x : Element, x.setChildText desc.tagName s =
      x.setChildWith desc.tagName fun z => { z with text := some s } := fun _ => rfl
  refine ⟨getFeatureList_setChildWith (fun x => Element.tag_setChildText x _ s)
    (fun x => by rw [hedit]; exact Element.findall_setChildWith_of_ne hfeat fun _ => rfl)
    (fun x j hj => by rw [hedit]; exact Element.child?_setChildWith_of_mem hfeat hj),
    fun other hother hne => ?_⟩
  obtain ⟨hpo, hgo, -, -, -⟩ := hfacts other hother
  rw [Descriptor.getText_of_child hpo hgo, Descriptor.getText_of_child hpo hgo,
    Element.child_setChildWith d "cpu" (fun x => Element.tag_setChildText x _ s), Option.some_bind,
    Element.bind_child?_find, hedit,
    Element.find?_setChildWith_of_ne (f := fun z => { z with text := some s })
      (htags other hother hne) fun _ => rfl,
    ← Element.bind_child?_find]
  cases (d.find "cpu").bind d.child? <;> rfl

theorem vmCpuXml_set_independent_vendor : ∃ d', vendor.setText exampleCpuDomain "Intel" = .ok d' ∧
    getFeatureList d' = getFeatureList exampleCpuDomain ∧
      model.getText d' = .ok (some "Penryn") := by
  obtain ⟨d', hd'⟩ : ∃ d', vendor.setText exampleCpuDomain "Intel" = .ok d' := ⟨_, rfl⟩
  obtain ⟨⟨hl, -⟩, hother⟩ :=
    vmCpuXml_set_independent exampleCpuDomain "Intel" vendor (by simp) d' hd'
  exact ⟨d', hd', hl, (hother model (by simp) (by decide)).trans rfl⟩

/-- What `model` and `vendor` read: the first child with tag `t` of the first `cpu`. -/
def cpuChild (t : String) (d : Element) : Option Element :=
  (d.children.find? (·.tag == "cpu")).bind fun x => x.children.find? (·.tag == t)

theorem getText_congr_cpuChild {desc : Descriptor} (hp : xpathSteps desc.parentXpath = ["cpu"])
    (hg : "get" ∉ desc.forbidden) {d d' : Element}
    (h : cpuChild desc.tagName d' = cpuChild desc.tagName d) : desc.getText d' = desc.getText d := by
  rw [Descriptor.getText_of_child hp hg, Descriptor.getText_of_child hp hg]
  simp only [Element.bind_child?_find]
  unfold cpuChild at h
  rw [h]

/-- Editing the root's child `k`, keeping its tag and its first `t` child, keeps the first cpu's
first `t` child. -/
theorem cpuChild_modifyChild {d : Element} {k : Nat} {g : Element → Element} {t : String}
    (hg : ∀ x, (g x).tag = x.tag)
    (hk : ∀ x, d.child? k = some x →
      (g x).children.find? (·.tag == t) = x.children.find? (·.tag == t)) :
    cpuChild t (d.modifyChild k g) = cpuChild t d := by
  unfold cpuChild
  rw [← Element.bind_child?_find, ← Element.bind_child?_find, Element.find_modifyChild _ _ hg]
  cases d.find "cpu" with
  | none => rfl
  | some c =>
    by_cases hck : c = k
    · subst hck
      rw [Option.some_bind, Option.some_bind, Element.child?_modifyChild_self]
      cases hx : d.child? c with
      | none => rfl
      | some x => exact hk x hx
    · rw [Option.some_bind, Option.some_bind, Element.child?_modifyChild_ne _ _ (Ne.symm hck)]

/-- The nodes of the feature list are features, children of a child of the root. -/
theorem mem_getFeatureList {d : Element} {p : Path} (hp : p ∈ getFeatureList d) :
    ∃ k j x a, p = [k, j] ∧ d.child? k = some x ∧ x.children[j]? = some a ∧ a.tag = "feature" := by
  simp only [getFeatureList, List.mem_flatMap] at hp
  obtain ⟨k, -, hp⟩ := hp
  cases hx : d.child? k with
  | none => simp [Element.findallAt, hx] at hp
  | some x =>
    simp only [Element.findallAt, Element.getAt?_cons, Element.getAt?_nil, hx, Option.some_bind,
      Option.map_some', Option.getD_some, List.mem_map] at hp
    obtain ⟨j, hj, rfl⟩ := hp
    obtain ⟨a, ha, haj⟩ := exists_of_mem_positions (fun x : Element => x.tag == "feature") hj
    exact ⟨k, j, x, a, rfl, hx, haj, by simpa using (List.mem_filter.mp ha).2⟩

/-- An edit of one child of a cpu that is a feature, keeping it a feature, keeps the cpu's
first child with any other tag. -/
theorem find?_modify_feature {x a : Element} {j : Nat} {f : Element → Element} {t : String}
    (ht : t ≠ "feature") (haj : x.children[j]? = some a) (ha : a.tag = "feature")
    (hf : (f a).tag = a.tag) :
    (x.children.modify f j).find? (·.tag == t) = x.children.find? (·.tag == t) := by
  rw [← List.filter_head?, ← List.filter_head?,
    filter_modify_of_not (·.tag == t) f x.children haj (by simp [ha, Ne.symm ht])
      (by simp [hf, ha, Ne.symm ht])]

theorem find?_eraseIdx_feature {x a : Element} {j : Nat} {t : String} (ht : t ≠ "feature")
    (haj : x.children[j]? = some a) (ha : a.tag = "feature") :
    (x.children.eraseIdx j).find? (·.tag == t) = x.children.find? (·.tag == t) := by
  rw [← List.filter_head?, ← List.filter_head?,
    filter_eraseIdx_of_not (·.tag == t) x.children haj (by simp [ha, Ne.symm ht])]

/-- **A feature call changes no child of the first cpu but features**, whether it returns or
raises: the first child with any other tag stays as it was. -/
theorem FeatureOp.cpuChild_run (op : FeatureOp) (d : Element) {t : String}
    (ht : t ≠ "feature") : cpuChild t (op.run d) = cpuChild t d := by
  cases op with
  | getFeatureName i => rw [run, after_getFeatureName]
  | setFeature i v =>
    simp only [run, VMCPUXML.setFeature, bind, EStateM.bind, get, getThe, MonadStateOf.get,
      EStateM.get]
    cases checkIndex "Set" i (getFeatureList d).length with
    | error e => rfl
    | ok u =>
      cases hp : pyIndex (getFeatureList d) i with
      | error e => rfl
      | ok node =>
        obtain ⟨k, j, x, a, rfl, hx, haj, ha⟩ := mem_getFeatureList (mem_of_pyIndex hp)
        simp only [ofExcept, pure, EStateM.pure, set, MonadStateOf.set, EStateM.set, after,
          Element.modifyAt_cons, Element.modifyAt_nil]
        refine cpuChild_modifyChild (fun _ => Element.tag_modifyChild _ _ _) fun y hy => ?_
        obtain rfl : y = x := Option.some.inj (hy.symm.trans hx)
        exact find?_modify_feature ht haj ha (Element.tag_set a "name" v)
  | removeFeature i =>
    simp only [run, VMCPUXML.removeFeature, bind, EStateM.bind, get, getThe, MonadStateOf.get,
      EStateM.get]
    cases checkIndex "Remove" i (getFeatureList d).length with
    | error e => rfl
    | ok u =>
      cases hp : pyIndex (getFeatureList d) i with
      | error e => rfl
      | ok node =>
        obtain ⟨k, j, x, a, rfl, hx, haj, ha⟩ := mem_getFeatureList (mem_of_pyIndex hp)
        simp only [ofExcept, pure, EStateM.pure]
        cases d.find "cpu" with
        | none => rfl
        | some c =>
          dsimp only
          by_cases hkc : k = c
          · subst hkc
            have hrm : d.removeAt [k] (some [k, j]) = .ok (d.modifyAt [k] (·.removeChild j)) :=
              Element.removeAt_child (x := a) (by
                simp only [List.singleton_append, Element.getAt?_cons, Element.getAt?_nil, hx,
                  Option.some_bind, Option.bind_some]
                exact haj)
            simp only [hrm, EStateM.bind, EStateM.pure, set, MonadStateOf.set, EStateM.set,
              after, Element.modifyAt_cons, Element.modifyAt_nil]
            refine cpuChild_modifyChild (fun _ => Element.tag_removeChild _ _) fun y hy => ?_
            obtain rfl : y = x := Option.some.inj (hy.symm.trans hx)
            exact find?_eraseIdx_feature ht haj ha
          · have hrm : d.removeAt [c] (some [k, j]) = .error .valueError := by
              simp [Element.removeAt, hkc]
            simp only [hrm, EStateM.bind, throw, throwThe, MonadExceptOf.throw, EStateM.throw,
              after]
  | addFeature v =>
    cases hc : d.find "cpu" with
    | none =>
      simp only [run, VMCPUXML.addFeature, bind, EStateM.bind, get, getThe, MonadStateOf.get,
        EStateM.get, hc, Option.map_none', Element.subElementAt, Option.none_bind, ofExcept,
        throw, throwThe, MonadExceptOf.throw, EStateM.throw, after]
    | some c =>
      obtain ⟨x, hx, -⟩ := Element.child?_of_find hc
      rw [run, addFeature_of_cpu hc hx v]
      simp only [after, Element.modifyAt_cons, Element.modifyAt_nil]
      refine cpuChild_modifyChild (fun _ => Element.tag_subElement _ _ _) fun y _ => ?_
      simp [Element.subElement, List.find?_append, Ne.symm ht]

/-- **Feature calls never change what `model` and `vendor` read**: after every session of
feature calls, whichever of them raise, both getters read what they read before. -/
theorem featureSession_keeps_properties (ops : List FeatureOp) (d : Element) :
    ∀ desc ∈ [model, vendor], desc.getText (featureSession ops d) = desc.getText d := by
  have hrun : ∀ t, t ≠ "feature" → cpuChild t (featureSession ops d) = cpuChild t d := by
    intro t ht
    induction ops generalizing d with
    | nil => rfl
    | cons op ops ih => rw [featureSession, ih, op.cpuChild_run d ht]
  have hfacts : ∀ desc ∈ [model, vendor], xpathSteps desc.parentXpath = ["cpu"] ∧
      "get" ∉ desc.forbidden ∧ desc.tagName ≠ "feature" := by
    decide
  intro desc hdesc
  obtain ⟨hp, hg, ht⟩ := hfacts desc hdesc
  exact getText_congr_cpuChild hp hg (hrun _ ht)

theorem featureSession_keeps_properties_example :
    model ∈ [model, vendor] ∧
      model.getText (featureSession [.addFeature "vmx", .removeFeature 0, .setFeature 0 "ssse3"]
        exampleCpuDomain) = .ok (some "Penryn") :=
  ⟨by simp, (featureSession_keeps_properties _ exampleCpuDomain model (by simp)).trans rfl⟩

end VMCPUXML

end LibvirtXml
