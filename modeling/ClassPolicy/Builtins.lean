import ClassPolicy.Engine.Registration

/-!
# Built-in defaults

The policy for well-known library types. It is installed before any user
configuration, so user rules go before these, and types that already have a
spec keep it. Thread, process and class loader types and types over native
resources are never transformed; collections and dates are logical; abstract
collections and synchronizer bases are adaptable only; lock types ship
instrumented and refuse to be shared while held.
-/

set_option autoImplicit false

namespace ClassPolicy.Builtins

def provenance : String := "builtin"

/-- The hook by which a lock refuses to be shared while it is held. -/
def unlockedHook : String := "validateInUnLockState"

def permanentExcludes : List String :=
  ["org.jboss.net.protocol..*", "java.awt.Component", "java.lang.Thread", "java.lang.Process",
    "java.lang.ClassLoader", "java.lang.Runtime", "java.io.FileReader", "java.io.FileWriter",
    "java.io.FileDescriptor", "java.io.FileInputStream", "java.io.FileOutputStream",
    "java.net.DatagramSocket", "java.net.DatagramSocketImpl", "java.net.MulticastSocket",
    "java.net.ServerSocket", "java.net.Socket", "java.net.SocketImpl",
    "java.nio.channels.DatagramChannel", "java.nio.channels.FileChannel",
    "java.nio.channels.FileLock", "java.nio.channels.ServerSocketChannel",
    "java.nio.channels.SocketChannel", "java.util.logging.FileHandler",
    "java.util.logging.SocketHandler"]

def nonPortable : List String := ["javax.servlet.GenericServlet"]

def autolockExcludes : List String := ["* java.lang.Throwable.*(..)"]

def writeAutolocks : List String := ["synchronized * java.util.Properties.*(..)"]

def spec (name : String) : ClassSpec := .ofName (TypeName.ofString name)

def logical (name applicator : String) : ClassSpec :=
  .ofApplicator (TypeName.ofString name) applicator

/-- A spec under which calls of the members with these keys are logged. -/
def logging (keys : List String) (s : ClassSpec) : ClassSpec :=
  { s with memberBehaviors :=
      keys.foldl (fun behaviors key => behaviors.insert key .alwaysLog) s.memberBehaviors }

def logicalSpecs : List ClassSpec :=
  [{ logging ["clear()"] (logical "java.util.TreeMap" "TreeMapApplicator") with
      memberBehaviors := .ofList [("clear()", .alwaysLog), ("entrySet()", .viewWrapper)]
      construction := .nonDefaultConstructor },
    logical "java.util.HashMap" "PartialHashMapApplicator",
    { logical "java.util.LinkedHashMap" "LinkedHashMapApplicator" with
      construction := .nonDefaultConstructor },
    logical "java.util.Hashtable" "PartialHashMapApplicator",
    logical "java.util.Properties" "PartialHashMapApplicator",
    logging ["put(java.lang.Object,java.lang.Object)", "remove(java.lang.Object)", "clear()"]
      (logical "java.util.IdentityHashMap" "HashMapApplicator"),
    logical "java.util.HashSet" "HashSetApplicator",
    logical "java.util.LinkedHashSet" "HashSetApplicator",
    logical "java.util.TreeSet" "TreeSetApplicator",
    logical "java.util.LinkedList" "ListApplicator",
    logical "java.util.Collections$EmptyList" "ListApplicator",
    logical "java.util.Collections$EmptyMap" "HashMapApplicator",
    logical "java.util.Collections$EmptySet" "HashSetApplicator",
    logging ["setTime(long)"] (logical "java.util.Date" "DateApplicator"),
    logical "java.sql.Date" "DateApplicator",
    logical "java.sql.Time" "DateApplicator",
    logging ["setNanos(int)"] (logical "java.sql.Timestamp" "DateApplicator"),
    { logging ["set(java.lang.String,java.lang.String,int,java.lang.String,java.lang.String)"]
        (logical "java.net.URL" "UrlApplicator") with honorTransient := some true }]

/-- Fields declared in `java.util.AbstractMap` are shared, so it is not among
the types that are adaptable only. -/
def adaptableSpecs : List ClassSpec :=
  ["java.util.AbstractCollection", "java.util.AbstractSequentialList",
      "java.util.Dictionary"].map (fun name => { spec name with mode := .adaptableOnly }) ++
    ["java.util.AbstractList", "javax.servlet.GenericServlet"].map (fun name =>
      { spec name with mode := .adaptableOnly, honorTransient := some true }) ++
    [{ spec "java.util.AbstractMap" with honorTransient := some true },
      { spec "java.util.BitSet" with honorTransient := some false }] ++
    ["java.util.Collections$UnmodifiableCollection", "java.util.Collections$UnmodifiableList",
      "java.util.Collections$UnmodifiableMap", "java.util.Collections$UnmodifiableSet",
      "java.util.Collections$SynchronizedCollection", "java.util.Collections$SynchronizedList",
      "java.util.Collections$SynchronizedMap", "java.util.Collections$SynchronizedSet",
      "java.util.GregorianCalendar"].map (fun name =>
        { spec name with honorTransient := some true })

def lockSpec (simpleName : String) : ClassSpec :=
  (spec ("java.util.concurrent.locks." ++ simpleName)).markPreInstrumented

def lockSpecs : List ClassSpec :=
  [{ lockSpec "ReentrantReadWriteLock" with
      preCreate := some unlockedHook, onLoad := some .callConstructor,
      honorTransient := some true },
    { lockSpec "ReentrantReadWriteLock$ReadLock" with preCreate := some unlockedHook },
    { lockSpec "ReentrantReadWriteLock$WriteLock" with preCreate := some unlockedHook },
    { lockSpec "ReentrantReadWriteLock$Sync" with
      honorTransient := some true, customRewriter := some "aqs-subclass-strong-reference" },
    { lockSpec "ReentrantReadWriteLock$FairSync" with onLoad := some .callConstructor },
    { lockSpec "ReentrantLock" with
      preCreate := some unlockedHook, onLoad := some .callConstructor },
    { lockSpec "ReentrantLock$Sync" with
      honorTransient := some true, customRewriter := some "aqs-subclass-strong-reference" },
    { lockSpec "ReentrantLock$FairSync" with onLoad := some .callConstructor },
    { lockSpec "AbstractQueuedSynchronizer" with
      mode := .adaptableOnly, transientFields := SortedSet.ofList ["state"],
      honorTransient := some true, customRewriter := some "aqs" },
    { lockSpec "AbstractOwnableSynchronizer" with mode := .adaptableOnly }]

def specs : List ClassSpec :=
  logicalSpecs ++ adaptableSpecs ++ lockSpecs ++
    [{ spec "java.lang.Object" with onLoad := some .callConstructor }]

open Engine

def addWriteAutolock (pattern : String) : Engine → Outcome Unit :=
  addAutolock pattern ⟨.write, false⟩ (some provenance)

/-- Registers the defaults. A type that has a spec keeps it. -/
def install : Engine → Outcome Unit :=
  andThen (always fun e =>
    let e := permanentExcludes.foldl (fun e pattern => e.addPermanentExclude pattern) e
    let e := nonPortable.foldl (fun e pattern => e.addNonPortable pattern) e
    autolockExcludes.foldl (fun e pattern => e.addAutolockExclude pattern) e)
  (andThen (forEach addWriteAutolock writeAutolocks)
  (thenWith (addMissingSpecs .live specs) fun _ e => (.ok (), e)))

end ClassPolicy.Builtins
