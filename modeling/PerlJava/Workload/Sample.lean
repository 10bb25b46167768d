/-!
# Sample programs

Programs of any size, each for one part of the language. A size of `n` means that something is
there `n` times.
-/

namespace PerlJava.Sample

def text (lines : List String) : String :=
  String.join (lines.map (· ++ "\n"))

def block (head : String) (lines : List String) : List String :=
  (head ++ "\x7b") :: lines ++ ["\x7d"]

variable (n : Nat)

/-- Something for each number below `n`. -/
def each (f : String → List String) : List String :=
  (List.range n).flatMap fun i => f (toString i)

def again (lines : List String) : List String :=
  each n fun _ => lines

def element (hash key : String) : String :=
  "$" ++ hash ++ "\x7b\"" ++ key ++ "\"\x7d"

def casting : String :=
  let scalars := ["b", "i", "l", "f", "d", "s"]
  let assignments (v : String) : List String :=
    (["1", "1.1", "\"1\""] ++ (scalars.filter (· != v)).map ("$" ++ ·)
      ++ ["$file", "@array", "@list", "%hash", "$ref"]).map fun value =>
        "$" ++ v ++ " = " ++ value ++ ";"
  text ([
    "my $b=1;#<boolean>",
    "my $i=1;#<integer>",
    "my $l=1;#<long>",
    "my $f=1.0;#<float>",
    "my $d=1.0;#<double>",
    "my $s=\"x\";#<string>",
    "my $file=undef;#<file>",
    "my @array=();#<array><10><integer>",
    "my @list=();#<list><integer>",
    "my %hash=();#<hash><integer>",
    "my $ref=undef;#<ref><hash><integer>"]
    ++ again n (scalars.flatMap assignments ++ ["@array = @list;", "@list = @array;"]))

def operations : String :=
  let binary (result left right : String) (operators : List String) : List String :=
    operators.map fun op =>
      "$" ++ result ++ " = $" ++ left ++ " " ++ op ++ " $" ++ right ++ ";"
  let update (v value : String) (operators : List String) : List String :=
    operators.map fun op => "$" ++ v ++ " " ++ op ++ " " ++ value ++ ";"
  text ([
    "my $b=1;#<boolean>",
    "my $n=1;#<integer>",
    "my $m=2;#<integer>",
    "my $s=\"a\";#<string>",
    "my $t=\"b\";#<string>"]
    ++ again n (binary "n" "n" "m" ["+", "-", "*", "/", "**", "%"]
      ++ ["$s = $s x 2;", "$s = $s . $t;", "$n = + $m;", "$n = - $m;", "$n++;", "$n--;", "++$n;",
        "--$n;"]
      ++ binary "n" "n" "m" ["|", "&"]
      ++ ["$n = ~$m;", "$n = $n >> 1;", "$n = $n << 1;", "$n = $n ^ $m;"]
      ++ binary "b" "n" "m" ["==", "!=", ">", ">=", "<", "<="]
      ++ ["$n = $n <=> $m;"]
      ++ binary "b" "s" "t" ["eq", "ne", "gt", "ge", "lt", "le"]
      ++ binary "b" "n" "m" ["||", "&&"]
      ++ ["$b = !$b;", "$b = ($n and $m);", "$b = ($n or $m);", "$b = (not $b);",
        "$b = ($n xor $m);", "$n = $b?$n:$m;"]
      ++ update "n" "1" ["+=", "-="] ++ update "n" "2" ["*=", "/="]
      ++ update "n" "1" ["**=", "&=", "|=", "^=", ">>=", "<<=", "&&=", "||="]
      ++ ["$s x= 2;", "$s .= $t;", "$n %= 2;"]))

def branches (word : String) : List String :=
  (block (word ++ "($c==1)") ["$c=1;"]).dropLast ++ ["\x7delsif($c>3)\x7b", "$c=2;", "\x7delse\x7b",
    "$c=3;", "\x7d"]

def lateLoop (word : String) : List String :=
  (block "do" ["$c=1;"]).dropLast ++ ["\x7d" ++ word ++ "($c<10);"]

def blocks : String :=
  text (again n (block "" (
    block "" ["my $j=2;#<integer>"]
    ++ ["my $c=2;#<integer>"]
    ++ branches "if" ++ branches "unless"
    ++ block "while($c<10)" ["$c=100;", "last;"]
    ++ block "until($c>10)" ["$c=100;", "next;"]
    ++ block "for(;$c<10;$c++)" ["$c=100;"]
    ++ ["#<$k><integer>"]
    ++ block "for(my $k=0;$k<10;$k++)" ["$c=100;"]
    ++ lateLoop "while" ++ lateLoop "until"
    ++ ["my @xs=();#<array><10><integer>"]
    ++ block "foreach my $e (@xs)" ["$c=$e;"]
    ++ block "foreach (@xs)" ["$c=$c+1;"]
    ++ ["$c=2 if $c==1;", "$c=2 unless $c!=1;", "$c=2 while $c==1;", "$c=2 until $c!=1;",
      "$c=2 foreach @xs;"])))

def bothWays (result : String) (calls : List String) : List String :=
  calls.map (· ++ ";") ++ calls.map fun call => result ++ "=" ++ call ++ ";"

/-- The functions that the language provides. -/
def nativeFunctions : String :=
  let splices (array : String) : List String :=
    bothWays array [s!"splice({array},1)", s!"splice({array},1,2)",
      s!"splice({array},1,2,{array})"]
  let ends (array : String) : List String :=
    let takes := [s!"pop({array})", s!"shift({array})"]
    let adds := [s!"push({array},$s)", s!"unshift({array},$s)"]
    (takes ++ adds).map (· ++ ";") ++ takes.map ("$s=" ++ · ++ ";")
      ++ adds.map ("$n=" ++ · ++ ";")
  text (again n (block "" ([
    "my @xs=();#<array><10><string>",
    "my @ls=();#<list><string>",
    "my %hash=();#<hash><string>",
    "my $s=\"abc\";#<string>",
    "my $n=0;#<integer>",
    "print(\"hola\");",
    "say(\"hola\");",
    "print(\"hola\",\"mundo\");",
    "@xs=split(\",\",\"1,2,3,4,5\");",
    "chop($s);", "$s=chop($s);", "chomp($s);", "$s=chomp($s);",
    "$n=defined($s);",
    "system(\"ls\");",
    "exists(" ++ element "hash" "k" ++ ");",
    "die(\"boom\");",
    "exit(1);",
    "sort(@xs);",
    "#<$k><$v><string>"]
    ++ block "while((my $k,my $v)=each %hash)" ["$n=$n+1;"]
    ++ ["uc($s);", "lc($s);", "ucfirst($s);", "lcfirst($s);", "uc $s;", "lc $s;", "defined $s;",
      "length $s;", "pop @ls;", "shift @ls;", "die $s;", "exit $n;", "close $s;", "system $s;",
      "exists " ++ element "hash" "k" ++ ";",
      "delete " ++ element "hash" "k" ++ ";",
      "keys %hash;", "values %hash;",
      "delete(" ++ element "hash" "k" ++ ");",
      "$s=join(\",\",@xs);", "@xs=keys(%hash);", "@xs=values(%hash);", "$n=length($s);"]
    ++ bothWays "$s" ["substr($s,1)", "substr($s,1,2)", "substr($s,1,2,$s)"]
    ++ splices "@ls" ++ splices "@xs" ++ ends "@ls" ++ ends "@xs")))

/-- Arrays, lists, hashes and references to them. -/
def collections : String :=
  text (again n (block "" [
    "my @a=();#<array><10><string>",
    "my @l=();#<list><string>",
    "my %h=();#<hash><string>",
    "my @aa=();#<array><10><array><10><string>",
    "my @ll=();#<list><list><string>",
    "my %hh=();#<hash><hash><string>",
    "my $ra;#<ref><array><string>",
    "my $rl;#<ref><list><string>",
    "my $rh;#<ref><hash><string>",
    "my $s=\"x\";#<string>",
    "$s=$a[0];",
    "$s=$l[0];",
    "$s=" ++ element "h" "k" ++ ";",
    "$s=$aa[0][0];",
    "$s=" ++ element "hh" "k" ++ "\x7b\"v\"\x7d;",
    "$s=$ll[0][0];",
    "$a[0]=$s;",
    "$l[0]=$s;",
    element "h" "k" ++ "=$s;",
    "$aa[0][0]=$s;",
    element "hh" "k" ++ "\x7b\"v\"\x7d=$s;",
    "@a=@a;", "@l=@l;", "%h=%h;",
    "$ra=\\@a;", "$rl=\\@l;", "$rh=\\%h;",
    "@a=@$ra;", "@l=@$rl;", "%h=%$rh;",
    "$ra=$ra;", "$rl=$rl;", "$rh=$rh;"]))

/-- Functions of the program itself, calls of them and assignments to several variables. -/
def userFunctions : String :=
  let function (i : String) : List String :=
    ["#<args><string><integer>", "#<returns><string>"]
      ++ block ("sub fn" ++ i) ["#<$p1><string>", "#<$p2><integer>", "(my $p1,my $p2)=@_;",
        "my $r=$p1;#<string>", "return $r;"]
  text (each n function ++ block "" (
    ["my $out=\"\";#<string>"]
    ++ each n (fun i => ["$out=fn" ++ i ++ "(\"v\"," ++ i ++ ");"])
    ++ ["my $a=0;#<integer>", "my $b=0;#<integer>", "my $c=0;#<integer>", "my $d=0;#<integer>",
      "my @xs=();#<array><10><integer>", "($a,$b)=(1,2);", "($a,$b)=($b,$a);",
      "($c,$d)=($a,$b);", "($a,$b,$c,$d)=@xs;"]))

def mapper : String :=
  text ("#<mapper_code>" :: block "" (
    ["my $line;#<string>", "my @words;#<array><string>", "my $key;#<string>",
      "my $val=\"1\";#<string>", "#<mapper_loop>"]
    ++ block "while($line=<STDIN>)" (
      ["chomp($line);", "@words=split(\" \",$line);"]
      ++ block "foreach my $w (@words)"
        ["$key=$w;", "#<hadoop_print>", "print($key,\"\\t\",$val,\"\\n\");"])))

def reducer : String :=
  let restart := ["$oldkey=$newKey;", "$count=$value;"]
  let group := "@\x7b$unorder\x7b$newKey\x7d\x7d"
  text ("#<reducer_code>" :: block "" (
    ["#<reducer_var>", "my $oldkey=undef;#<string><reducer_key>",
      "my $value;#<string><reducer_value>", "my $count=0;#<integer>", "#<reducer_var>",
      "my $newKey;#<string>", "my $line;#<string>", "my %unorder=();#<hash><array><string>"]
    ++ block "while($line=<STDIN>)"
      ["chomp($line);", "($newKey,$value)=split(\"\\t\",$line);", "push(" ++ group ++ ",$value);"]
    ++ block "foreach $newKey (keys(%unorder))"
      (block ("foreach $value (" ++ group ++ ")")
        ((block "if(!(defined($oldkey)))" restart).dropLast
        ++ ["\x7delsif($oldkey eq $newKey)\x7b", "#<reducer_op>"]
        ++ block "" ["$count=$count+$value;"]
        ++ ["\x7delse\x7b", "print($oldkey,\"\\t\",$count,\"\\n\");"] ++ restart ++ ["\x7d"]))
    ++ ["#<reducer_change>"]
    ++ block "" ["#<hadoop_print>", "print($newKey,\"\\t\",$count,\"\\n\");"]))

def package (n : Nat) : String :=
  text (["package MyPkg;"]
    ++ each n (fun i => ["our $pv" ++ i ++ "=" ++ i ++ ";#<integer>"])
    ++ ["#<args><integer>", "#<returns><integer>"]
    ++ block "sub twice" ["#<$x><integer>", "(my $x,)=@_;", "return $x+$x;"])

def client : String :=
  text (["my $r=0;#<integer>"]
    ++ each n (fun i => ["$r=$r+$MyPkg::pv" ++ i ++ ";"])
    ++ ["$r=MyPkg::twice($r);", "#<java-import>import java.util.ArrayList;",
      "#<java-line>System.out.println(r);"])

def counters : String :=
  text (each n (fun i => ["my $v" ++ i ++ "=" ++ i ++ ";#<integer>",
    "$v" ++ i ++ "=$v" ++ i ++ "+" ++ i ++ ";"]) ++ ["print $v0;"])

def faulty : String :=
  text ["$x=1;"]

def flatJava : String :=
  text (block "public class P" (each n fun i => block "while(c)" ["x = " ++ i ++ ";"]))

/-- A text with marked sections, in a part that comes after other lines. -/
def markedLines : List String :=
  each (n / 4) (fun i => ["line " ++ i]) ++ ["#--! part-start"]
    ++ each (n / 8 + 1) (fun i => ["kept " ++ i, "#--! DEBUG", "dropped " ++ i, "#--! DEBUG"])
    ++ ["#--! part-end"]

end PerlJava.Sample
